import Mathlib

/-!
# A clock that wraps below the word size

A clock of period `period` is read into words of `w` bits, and its readings stay below the period.
`elapsed` is the usual measurement between two readings: a reading below the earlier one is taken to
have wrapped once, and is raised by the period. The sum may leave the word, and the difference
brings it back (`toNat_elapsed`).

A deadline that is tested for equality is met as long as the clock gets there tick by tick
(`tick_sub_le`, `deadline_met_iff`).
-/

namespace Ubertooth.Foundations

variable {w : ℕ}

/-- The time from the reading `prev` to the reading `now`. -/
def elapsed (period prev now : BitVec w) : BitVec w :=
  (if now < prev then now + period else now) - prev

/-- Without a wrap the correction plays no part. -/
theorem elapsed_of_le (period : BitVec w) {prev now : BitVec w} (h : prev ≤ now) :
    elapsed period prev now = now - prev := by
  rw [elapsed, if_neg (BitVec.not_lt.2 h)]

/-- After a wrap the measurement is the correction less the way back. -/
theorem elapsed_of_lt (period : BitVec w) {prev now : BitVec w} (h : now < prev) :
    elapsed period prev now = now + period - prev := by
  rw [elapsed, if_pos h]

/-- After a wrap, no two corrections measure the same. -/
theorem elapsed_eq_elapsed_iff {period correction prev now : BitVec w} :
    elapsed correction prev now = elapsed period prev now ↔ prev ≤ now ∨ correction = period := by
  by_cases h : now < prev
  · rw [elapsed_of_lt correction h, elapsed_of_lt period h, BitVec.sub_left_inj,
      BitVec.add_right_inj]
    exact ⟨Or.inr, fun hor => hor.resolve_left (BitVec.not_le.2 h)⟩
  · have hle : prev ≤ now := BitVec.not_lt.1 h
    rw [elapsed_of_le correction hle, elapsed_of_le period hle]
    exact iff_of_true rfl (Or.inl hle)

/-- **Elapsed time.** Between readings less than a period apart, the measurement is the distance,
whether or not the clock has wrapped. -/
theorem toNat_elapsed {period prev now : BitVec w} {d : ℕ} (hprev : prev < period)
    (hd : d < period.toNat) (hnow : now.toNat = (prev.toNat + d) % period.toNat) :
    (elapsed period prev now).toNat = d := by
  have hp : prev.toNat < period.toNat := BitVec.lt_def.1 hprev
  have hdw : (BitVec.ofNat w d).toNat = d :=
    (BitVec.toNat_ofNat d w).trans (Nat.mod_eq_of_lt (hd.trans period.isLt))
  rcases Nat.lt_or_ge (prev.toNat + d) period.toNat with hsum | hsum
  · -- no wrap
    rw [Nat.mod_eq_of_lt hsum] at hnow
    rw [elapsed_of_le period (BitVec.le_def.2 (by omega)),
      BitVec.toNat_sub_of_le (BitVec.le_def.2 (by omega)), hnow]
    omega
  · -- one wrap: the sum is the distance ahead of the earlier reading, in words
    have hmod : now.toNat = prev.toNat + d - period.toNat := by
      rw [hnow, Nat.mod_eq_sub_mod hsum, Nat.mod_eq_of_lt (by omega)]
    have hword : now + period = prev + BitVec.ofNat w d := by
      apply BitVec.eq_of_toNat_eq
      rw [BitVec.toNat_add, BitVec.toNat_add, hdw]
      congr 1
      omega
    rw [elapsed_of_lt period (BitVec.lt_def.2 (by omega)), hword, BitVec.add_comm,
      BitVec.add_sub_cancel, hdw]

/-! ## A deadline that is tested for equality -/

variable {start timeout clock : BitVec w}

theorem deadline_eq_iff : start + timeout = clock ↔ clock - start = timeout := by
  rw [BitVec.sub_eq_iff_eq_add, BitVec.add_comm, eq_comm]

/-- A clock that has not passed the deadline, and is not there, does not pass it at the next
tick. -/
theorem tick_sub_le (h : clock - start ≤ timeout) (hne : start + timeout ≠ clock) :
    clock + 1 - start ≤ timeout := by
  have hlt : clock - start < timeout :=
    BitVec.lt_of_le_ne h fun heq => hne (deadline_eq_iff.2 heq)
  have hcomm : clock + 1 - start = clock - start + 1 := by ring
  have hone : (1 : BitVec w).toNat ≤ 1 := Nat.mod_le 1 _
  rw [hcomm, BitVec.le_def, BitVec.toNat_add]
  calc ((clock - start).toNat + (1 : BitVec w).toNat) % 2 ^ w
      ≤ (clock - start).toNat + 1 := (Nat.mod_le _ _).trans (Nat.add_le_add_left hone _)
    _ ≤ timeout.toNat := BitVec.lt_def.1 hlt

/-- The test notices that the time has come exactly if the clock has not passed the deadline. -/
theorem deadline_met_iff :
    (timeout ≤ clock - start → start + timeout = clock) ↔ clock - start ≤ timeout := by
  rw [deadline_eq_iff]
  constructor
  · intro h
    rcases BitVec.le_total (clock - start) timeout with hle | hge
    · exact hle
    · rw [h hge]
      exact BitVec.le_refl timeout
  · exact fun hle hge => BitVec.le_antisymm hle hge

end Ubertooth.Foundations
