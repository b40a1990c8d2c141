import Mathlib

/-!
# Dividers

A divider counts a timer down; when it reaches zero it counts one period and reloads. Preset to
one less than its period it is in step with the numbers (`inStep_zero`, `tick_inStep`): after `m`
ticks it has counted `(m + 1) / p` periods and has `p - (m + 1) % p` ticks left.
-/

namespace Ubertooth.Foundations

/-- A timer and the number of periods it has counted. -/
structure Divider where
  timer : ℕ
  count : ℕ

namespace Divider

/-- One tick of a divider with period `p`. -/
def tick (p : ℕ) (d : Divider) : Divider :=
  if d.timer = 1 then ⟨p, d.count + 1⟩ else ⟨d.timer - 1, d.count⟩

/-- The divider of period `p` in step with `m` ticks. -/
def inStep (p m : ℕ) : Divider := ⟨p - (m + 1) % p, (m + 1) / p⟩

theorem inStep_zero {p : ℕ} (hp : 2 ≤ p) : inStep p 0 = ⟨p - 1, 0⟩ := by
  have hmod : (0 + 1) % p = 1 := Nat.mod_eq_of_lt hp
  have hdiv : (0 + 1) / p = 0 := Nat.div_eq_of_lt hp
  rw [inStep, hmod, hdiv]

theorem inStep_timer_pos {p : ℕ} (hp : 0 < p) (m : ℕ) : 0 < (inStep p m).timer :=
  Nat.sub_pos_of_lt (Nat.mod_lt _ hp)

theorem succ_mod_of_ne_zero {p n : ℕ} (hp : 0 < p) (h : (n + 1) % p ≠ 0) :
    (n + 1) % p = n % p + 1 := by
  have hlt : n % p < p := Nat.mod_lt _ hp
  have hnext : (n + 1) % p = (n % p + 1) % p := by rw [Nat.mod_add_mod]
  rcases Nat.lt_or_ge (n % p + 1) p with hlt' | hge
  · rw [hnext, Nat.mod_eq_of_lt hlt']
  · have hp' : n % p + 1 = p := by omega
    rw [hnext, hp', Nat.mod_self] at h
    exact absurd rfl h

theorem mod_of_succ_mod_eq_zero {p n : ℕ} (hp : 0 < p) (h : (n + 1) % p = 0) :
    n % p + 1 = p := by
  have hlt : n % p < p := Nat.mod_lt _ hp
  have hnext : (n + 1) % p = (n % p + 1) % p := by rw [Nat.mod_add_mod]
  rcases Nat.lt_or_ge (n % p + 1) p with hlt' | hge
  · rw [hnext, Nat.mod_eq_of_lt hlt'] at h
    omega
  · omega

/-- **In step.** A tick keeps a divider in step. -/
theorem tick_inStep {p : ℕ} (hp : 2 ≤ p) (m : ℕ) : tick p (inStep p m) = inStep p (m + 1) := by
  have hp0 : 0 < p := by omega
  have hlt : (m + 1) % p < p := Nat.mod_lt _ hp0
  unfold tick inStep
  by_cases h : (m + 1 + 1) % p = 0
  · -- the timer is at its last tick
    have hmod := mod_of_succ_mod_eq_zero hp0 h
    rw [if_pos (by show p - (m + 1) % p = 1; omega), h, Nat.succ_div_of_mod_eq_zero h, Nat.sub_zero]
  · have hmod := succ_mod_of_ne_zero hp0 h
    have hnext : (m + 1 + 1) % p < p := Nat.mod_lt _ hp0
    rw [if_neg (by show ¬p - (m + 1) % p = 1; omega), hmod, Nat.succ_div_of_mod_ne_zero h,
      Nat.sub_add_eq]

end Divider

end Ubertooth.Foundations
