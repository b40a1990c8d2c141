import Mathlib

/-!
# Packets

A text cut into packets of `n` items, the last of which are shorter or empty (`packets`), and a
receiver that knows neither the length of the text nor the number of packets: it stops at the first
packet that is not full, and once it has as many items as it asked for (`gather`). What was cut is
gathered, as soon as enough packets have come and not before (`gather_packets`).
-/

namespace Ubertooth.Foundations

variable {α : Type*} {n limit : ℕ} {xs : List α}

/-- The `k`-th packet of `n` items of a text. -/
def packet (n : ℕ) (xs : List α) (k : ℕ) : List α := (xs.drop (n * k)).take n

/-- The first packets of a text. -/
def packets (n : ℕ) (xs : List α) (count : ℕ) : List (List α) :=
  (List.range count).map (packet n xs)

/-- What a receiver that asks for `limit` items has gathered, once it is content. -/
def gather (n : ℕ) : ℕ → List (List α) → Option (List α)
  | _, [] => none
  | limit, p :: ps =>
    if p.length < n ∨ limit ≤ p.length then some p
    else (gather n (limit - p.length) ps).map (p ++ ·)

/-- The packets a receiver that asks for `limit` items waits for. -/
def needed (n limit len : ℕ) : ℕ := if len = limit then (len + n - 1) / n else len / n + 1

@[simp] theorem packets_zero : packets n xs 0 = [] := rfl

@[simp] theorem length_packets (count : ℕ) : (packets n xs count).length = count := by
  simp [packets]

theorem packet_zero : packet n xs 0 = xs.take n := by rw [packet, Nat.mul_zero, List.drop_zero]

theorem packet_succ (k : ℕ) : packet n xs (k + 1) = packet n (xs.drop n) k := by
  rw [packet, packet, List.drop_drop, Nat.mul_succ, Nat.add_comm]

/-- The first packet, and those of the rest. -/
theorem packets_succ (count : ℕ) :
    packets n xs (count + 1) = xs.take n :: packets n (xs.drop n) count := by
  simp only [packets, List.range_succ_eq_map, List.map_cons, List.map_map, packet_zero]
  congr 1
  exact List.map_congr_left fun k _ => packet_succ k

/-- The packets carry the text in order, as far as they go. -/
theorem flatten_packets (count : ℕ) : (packets n xs count).flatten = xs.take (n * count) := by
  induction count generalizing xs with
  | zero => rw [packets_zero, List.flatten_nil, Nat.mul_zero, List.take_zero]
  | succ count ih =>
    rw [packets_succ, List.flatten_cons, ih, Nat.mul_succ, Nat.add_comm, ← List.take_add]

theorem needed_of_lt (hlen : xs.length < n) (hlimit : 0 < limit) :
    needed n limit xs.length = 1 := by
  rw [needed]
  split
  case isTrue h => exact Nat.div_eq_of_lt_le (by omega) (by omega)
  case isFalse h => rw [Nat.div_eq_of_lt hlen]

theorem needed_drop (hn : 0 < n) (hlen : n ≤ xs.length) (hlimit : n < limit) :
    needed n limit xs.length = needed n (limit - n) (xs.drop n).length + 1 := by
  obtain ⟨m, hm⟩ := Nat.exists_eq_add_of_le hlen
  obtain ⟨l, rfl⟩ := Nat.exists_eq_add_of_le hlimit.le
  rw [List.length_drop, hm, needed, needed, Nat.add_sub_cancel_left, Nat.add_sub_cancel_left]
  by_cases h : m = l
  · rw [if_pos (by omega), if_pos h, show n + m + n - 1 = m + n - 1 + n by omega,
      Nat.add_div_right _ hn]
  · rw [if_neg (by omega), if_neg h, Nat.add_comm n m, Nat.add_div_right _ hn]

/-- **What was cut is gathered**, once as many packets have come as it takes. -/
theorem gather_packets (hn : 0 < n) (hlimit : 0 < limit) (hlen : xs.length ≤ limit) (count : ℕ) :
    gather n limit (packets n xs count) =
      if needed n limit xs.length ≤ count then some xs else none := by
  induction count generalizing xs limit with
  | zero =>
    have hpos : 0 < needed n limit xs.length := by
      rw [needed]
      split
      case isTrue h => exact Nat.div_pos (by omega) hn
      case isFalse h => exact Nat.succ_pos _
    rw [packets_zero, gather, if_neg (by omega)]
  | succ count ih =>
    rw [packets_succ, gather, List.length_take]
    rcases Nat.lt_or_ge xs.length n with hshort | hfull
    · -- the first packet is the last
      rw [if_pos (.inl (by omega)), needed_of_lt hshort hlimit, if_pos (by omega),
        List.take_of_length_le hshort.le]
    rw [Nat.min_eq_left hfull]
    rcases Nat.lt_or_ge n limit with hmore | hall
    · rw [if_neg (by omega), ih (by omega) (by rw [List.length_drop]; omega),
        needed_drop hn hfull hmore, apply_ite (Option.map (List.take n xs ++ ·)), Option.map_some,
        Option.map_none, List.take_append_drop]
      simp only [Nat.add_le_add_iff_right]
    · have hone : needed n limit xs.length = 1 := by
        rw [needed, if_pos (by omega)]
        exact Nat.div_eq_of_lt_le (by omega) (by omega)
      rw [if_pos (.inr hall), hone, if_pos (by omega), List.take_of_length_le (by omega)]

end Ubertooth.Foundations
