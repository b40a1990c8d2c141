import Mathlib

/-!
# Walks on a cycle

A walk on the places `0, …, n - 1` of a cycle by a fixed step. If the step and `n` are coprime, the
walk comes by every place within its first `n` steps (`exists_visit`).

A walk that stops at some of the places only goes, at each stop, on to the next of them. It stops at
each of them once before it comes back to the first, and then goes round again
(`GoesOn.existsUnique_stop`, `GoesOn.iterate_add_card`).
-/

namespace Ubertooth.Foundations.CyclicWalk

/-- The place of a walk from `i` after `k` steps. -/
def place (n step i k : ℕ) : ℕ := (i + k * step) % n

@[simp] theorem place_zero {n i : ℕ} (step : ℕ) (hi : i < n) : place n step i 0 = i := by
  simp [place, Nat.mod_eq_of_lt hi]

theorem place_lt {n : ℕ} (hn : 0 < n) (step i k : ℕ) : place n step i k < n := Nat.mod_lt _ hn

theorem place_succ (n step i k : ℕ) :
    place n step i (k + 1) = (place n step i k + step) % n := by
  rw [place, place, Nat.mod_add_mod, Nat.succ_mul, Nat.add_assoc]

/-- **A walk with a coprime step visits every place**, after at least one and at most `n` steps. -/
theorem exists_visit {n step : ℕ} (hn : 0 < n) (hstep : Nat.Coprime step n) (i : ℕ) {j : ℕ}
    (hj : j < n) : ∃ k, 1 ≤ k ∧ k ≤ n ∧ place n step i k = j := by
  have : NeZero n := ⟨hn.ne'⟩
  -- the number of steps, as a residue
  let r : ZMod n := ((j : ZMod n) - i) * (step : ZMod n)⁻¹
  have hr : (i : ZMod n) + r * step = j := by
    have hinv : (step : ZMod n)⁻¹ * step = 1 := by
      rw [mul_comm]
      exact ZMod.coe_mul_inv_eq_one step hstep
    rw [mul_assoc, hinv, mul_one, add_sub_cancel]
  have hplace : ∀ k : ℕ, (k : ZMod n) = r → place n step i k = j := by
    intro k hk
    have hmod : ((i + k * step : ℕ) : ZMod n) = (j : ℕ) := by
      rw [Nat.cast_add, Nat.cast_mul, hk, hr]
    have hmodEq := (ZMod.natCast_eq_natCast_iff _ _ _).1 hmod
    rw [place, hmodEq, Nat.mod_eq_of_lt hj]
  rcases Nat.eq_zero_or_pos r.val with hzero | hpos
  · refine ⟨n, hn, Nat.le_refl n, hplace n ?_⟩
    rw [ZMod.natCast_self, ← ZMod.natCast_zmod_val r, hzero, Nat.cast_zero]
  · exact ⟨r.val, hpos, (ZMod.val_lt r).le, hplace r.val (ZMod.natCast_zmod_val r)⟩

theorem place_add (n step i k l : ℕ) :
    place n step (place n step i k) l = place n step i (k + l) := by
  rw [place, place, place, Nat.mod_add_mod, Nat.add_mul, Nat.add_assoc]

/-! ## Stops -/

/-- From any place `next` goes on to the first place of the walk that is a stop, one step or more
away. -/
def GoesOn (n step : ℕ) (stop : ℕ → Prop) (next : ℕ → ℕ) : Prop :=
  ∀ i < n, ∃ m, 1 ≤ m ∧ next i = place n step i m ∧ stop (next i) ∧
    ∀ l, 1 ≤ l → l < m → ¬stop (place n step i l)

namespace GoesOn

open Function

variable {n step : ℕ} {stop : ℕ → Prop} {next : ℕ → ℕ} {i j : ℕ}

theorem next_lt (h : GoesOn n step stop next) (hi : i < n) : next i < n := by
  obtain ⟨m, -, hnext, -⟩ := h i hi
  rw [hnext]
  exact place_lt (Nat.zero_lt_of_lt hi) step i m

theorem iterate_lt (h : GoesOn n step stop next) (hi : i < n) (t : ℕ) : next^[t] i < n := by
  induction t with
  | zero => exact hi
  | succ t ih =>
    rw [iterate_succ_apply']
    exact h.next_lt ih

theorem stop_iterate (h : GoesOn n step stop next) (hi : i < n) (t : ℕ) :
    stop (next^[t + 1] i) := by
  obtain ⟨-, -, -, hstop, -⟩ := h _ (h.iterate_lt hi t)
  rwa [iterate_succ_apply']

/-- The stops of the walk are among those of `next`. -/
theorem exists_iterate_eq_place (h : GoesOn n step stop next) {m : ℕ} (hm : 1 ≤ m) (hi : i < n)
    (hstop : stop (place n step i m)) : ∃ t, next^[t + 1] i = place n step i m := by
  induction m using Nat.strong_induction_on generalizing i with
  | h m ih =>
    obtain ⟨first, hpos, hnext, -, hbefore⟩ := h i hi
    rcases Nat.lt_trichotomy first m with hlt | rfl | hgt
    · obtain ⟨rest, rfl⟩ := Nat.exists_eq_add_of_lt hlt
      rw [Nat.add_assoc, ← place_add, ← hnext] at hstop ⊢
      obtain ⟨t, ht⟩ := ih (rest + 1) (by omega) (Nat.succ_pos rest) (h.next_lt hi) hstop
      exact ⟨t + 1, ht⟩
    · exact ⟨0, hnext⟩
    · exact absurd hstop (hbefore m hm hgt)

/-- Every stop is reached from everywhere. -/
theorem exists_iterate_eq (h : GoesOn n step stop next) (hstep : Nat.Coprime step n) (hi : i < n)
    (hj : j < n) (hstop : stop j) : ∃ t, next^[t + 1] i = j := by
  obtain ⟨m, hm, -, rfl⟩ := exists_visit (Nat.zero_lt_of_lt hi) hstep i hj
  exact h.exists_iterate_eq_place hm hi hstop

variable [DecidablePred stop]

/-- A stop is come back to after as many steps as there are stops. -/
theorem minimalPeriod_eq (h : GoesOn n step stop next) (hstep : Nat.Coprime step n) (hi : i < n)
    (hstop : stop i) : minimalPeriod next i = ((Finset.range n).filter stop).card := by
  obtain ⟨r, hr⟩ := h.exists_iterate_eq hstep hi hi hstop
  have hperiodic : i ∈ periodicPts next := mk_mem_periodicPts (Nat.succ_pos r) hr
  have horbit : ((Finset.range n).filter stop) =
      (Finset.range (minimalPeriod next i)).image fun t => next^[t] i := by
    apply Finset.ext
    intro j
    rw [Finset.mem_filter, Finset.mem_range, Finset.mem_image]
    constructor
    · rintro ⟨hj, hj'⟩
      obtain ⟨t, ht⟩ := h.exists_iterate_eq hstep hi hj hj'
      refine ⟨(t + 1) % minimalPeriod next i, ?_, ?_⟩
      · exact Finset.mem_range.2 (Nat.mod_lt _ (minimalPeriod_pos_of_mem_periodicPts hperiodic))
      · rw [iterate_mod_minimalPeriod_eq, ht]
    · rintro ⟨t, -, rfl⟩
      refine ⟨h.iterate_lt hi t, ?_⟩
      cases t with
      | zero => exact hstop
      | succ t => exact h.stop_iterate hi t
  have hinj : Set.InjOn (fun t => next^[t] i) (Finset.range (minimalPeriod next i)) := by
    rw [Finset.coe_range]
    exact iterate_injOn_Iio_minimalPeriod
  rw [horbit, Finset.card_image_of_injOn hinj, Finset.card_range]

/-- **Round again** after as many steps as there are stops. -/
theorem iterate_add_card (h : GoesOn n step stop next) (hstep : Nat.Coprime step n) (hi : i < n)
    (t : ℕ) : next^[t + 1 + ((Finset.range n).filter stop).card] i = next^[t + 1] i := by
  have hfirst := h.minimalPeriod_eq hstep (h.next_lt hi) (h.stop_iterate hi 0)
  have hround := iterate_add_minimalPeriod_eq (f := next) (x := next i) (n := t)
  rw [hfirst] at hround
  rw [Nat.add_right_comm, iterate_succ_apply, hround, ← iterate_succ_apply]

/-- **Once each** in the first round. -/
theorem existsUnique_stop (h : GoesOn n step stop next) (hstep : Nat.Coprime step n) (hi : i < n)
    (hj : j < n) (hstop : stop j) :
    ∃! t, t < ((Finset.range n).filter stop).card ∧ next^[t + 1] i = j := by
  have hfirst := h.minimalPeriod_eq hstep (h.next_lt hi) (h.stop_iterate hi 0)
  obtain ⟨t, ht⟩ := h.exists_iterate_eq hstep hi hj hstop
  rw [← hfirst]
  have hpos : 0 < minimalPeriod next (next i) := by
    rw [hfirst, Finset.card_pos]
    exact ⟨j, Finset.mem_filter.2 ⟨Finset.mem_range.2 hj, hstop⟩⟩
  refine ⟨t % minimalPeriod next (next i), ⟨Nat.mod_lt _ hpos, ?_⟩, ?_⟩
  · rw [iterate_succ_apply, iterate_mod_minimalPeriod_eq, ← iterate_succ_apply, ht]
  · rintro s ⟨hs, hsj⟩
    apply iterate_injOn_Iio_minimalPeriod (f := next) (x := next i) hs (Nat.mod_lt _ hpos)
    dsimp only
    rw [iterate_mod_minimalPeriod_eq, ← iterate_succ_apply, hsj, ← iterate_succ_apply, ht]

end GoesOn

end Ubertooth.Foundations.CyclicWalk
