import Mathlib

/-!
# Words sent one bit at a time

A word goes over a wire most significant bit first. A register that is shifted up by one place for
each bit received ends with the bits received in its low places, in the order in which they came
(`msbFirst_foldl_shiftConcat`), while the bits it held leave at the top.
-/

namespace Ubertooth.Foundations

variable {w m : ℕ}

/-- The low `n` bits of a word, most significant first. -/
def msbFirst : ℕ → BitVec w → List Bool
  | 0, _ => []
  | n + 1, c => c.getLsbD n :: msbFirst n c

/-- The number that the bits write, most significant first. -/
def ofMsbFirst (bs : List Bool) : ℕ := bs.foldl (fun value b => 2 * value + b.toNat) 0

@[simp] theorem msbFirst_zero (c : BitVec w) : msbFirst 0 c = [] := rfl

theorem msbFirst_succ (n : ℕ) (c : BitVec w) :
    msbFirst (n + 1) c = c.getLsbD n :: msbFirst n c := rfl

@[simp] theorem length_msbFirst (n : ℕ) (c : BitVec w) : (msbFirst n c).length = n := by
  induction n with
  | zero => rfl
  | succ n ih => rw [msbFirst_succ, List.length_cons, ih]

theorem msbFirst_congr {n : ℕ} {c : BitVec w} {d : BitVec m}
    (h : ∀ i, i < n → c.getLsbD i = d.getLsbD i) : msbFirst n c = msbFirst n d := by
  induction n with
  | zero => rfl
  | succ n ih =>
    rw [msbFirst_succ, msbFirst_succ, h n (by omega), ih fun i hi => h i (by omega)]

/-- The upper part of a word goes before the lower one. -/
theorem msbFirst_add (a b : ℕ) (c : BitVec w) :
    msbFirst (a + b) c = msbFirst a (c >>> b) ++ msbFirst b c := by
  induction a with
  | zero => simp
  | succ a ih =>
    rw [Nat.add_right_comm, msbFirst_succ, ih, msbFirst_succ, BitVec.getLsbD_ushiftRight,
      Nat.add_comm b a, List.cons_append]

/-- The bits of a word write the word. -/
theorem ofMsbFirst_msbFirst (n : ℕ) (c : BitVec w) :
    ofMsbFirst (msbFirst n c) = c.toNat % 2 ^ n := by
  induction n generalizing c with
  | zero => simp [ofMsbFirst, Nat.mod_one]
  | succ n ih =>
    have hupper : ofMsbFirst (msbFirst n (c >>> 1)) = c.toNat / 2 % 2 ^ n := by
      rw [ih, BitVec.toNat_ushiftRight, Nat.shiftRight_one]
    have hlast : (c.getLsbD 0).toNat = c.toNat % 2 := by
      rw [BitVec.getLsbD, Nat.testBit_zero]
      rcases Nat.mod_two_eq_zero_or_one c.toNat with h | h <;> simp [h]
    have hsplit : c.toNat % 2 ^ (n + 1) = 2 * (c.toNat / 2 % 2 ^ n) + c.toNat % 2 := by
      rw [Nat.pow_succ', Nat.mod_mul]
      omega
    rw [msbFirst_add n 1, ofMsbFirst, List.foldl_append]
    change 2 * ofMsbFirst (msbFirst n (c >>> 1)) + (c.getLsbD 0).toNat = _
    rw [hupper, hlast, hsplit]

/-! ## Receiving -/

theorem msbFirst_shiftConcat {n : ℕ} (hn : n < w) (c : BitVec w) (b : Bool) :
    msbFirst (n + 1) (c.shiftConcat b) = msbFirst n c ++ [b] := by
  induction n with
  | zero => simp [msbFirst_succ, hn]
  | succ n ih =>
    rw [msbFirst_succ, ih (by omega), msbFirst_succ, BitVec.getLsbD_shiftConcat, List.cons_append]
    simp [hn]

/-- The bits received are the low bits of the register, in their order. -/
theorem msbFirst_foldl_shiftConcat (c : BitVec w) (bs : List Bool) (h : bs.length ≤ w) :
    msbFirst bs.length (bs.foldl BitVec.shiftConcat c) = bs := by
  induction bs using List.reverseRecOn with
  | nil => rfl
  | append_singleton bs b ih =>
    rw [List.length_append, List.length_singleton] at h ⊢
    rw [List.foldl_append, List.foldl_cons, List.foldl_nil, msbFirst_shiftConcat (by omega),
      ih (by omega)]

/-- Before a bit of the register is pushed out, it has moved up by one place for each bit
received. -/
theorem getLsbD_foldl_shiftConcat (c : BitVec w) (bs : List Bool) {i : ℕ} (hi : i + bs.length < w) :
    (bs.foldl BitVec.shiftConcat c).getLsbD (i + bs.length) = c.getLsbD i := by
  induction bs generalizing c i with
  | nil => rfl
  | cons b bs ih =>
    rw [List.length_cons] at hi ⊢
    rw [List.foldl_cons, ← Nat.add_assoc, Nat.add_right_comm, ih _ (by omega),
      BitVec.getLsbD_shiftConcat]
    simp [show i + 1 < w by omega]

end Ubertooth.Foundations
