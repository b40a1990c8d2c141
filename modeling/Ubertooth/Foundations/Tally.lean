import Mathlib

/-!
# Tallies

A cache of keys with counts, of whatever size and with whatever rule of eviction. A touch of a key
may count it up where it is, or let it take an entry over with the count 1 (`Touches`). Such a cache
never counts a key more often than it was touched (`neverOver_foldl`).
-/

namespace Ubertooth.Foundations

variable {ι κ σ : Type*} [DecidableEq κ]

/-- What the touch of a key may do to the entries. -/
def Touches (key : κ) (c c' : ι → κ × ℤ) : Prop :=
  ∀ i, c' i = c i ∨ c' i = (key, 1) ∨ (c i).1 = key ∧ c' i = (key, (c i).2 + 1)

/-- No entry counts more than the touches of its key. -/
def NeverOver (keys : List κ) (c : ι → κ × ℤ) : Prop := ∀ i, (c i).2 ≤ keys.count (c i).1

theorem NeverOver.touch {keys : List κ} {c c' : ι → κ × ℤ} {key : κ} (h : NeverOver keys c)
    (ht : Touches key c c') : NeverOver (keys ++ [key]) c' := by
  intro i
  have hi := h i
  rw [List.count_append]
  obtain heq | heq | ⟨hkey, heq⟩ := ht i
  · rw [heq]
    push_cast
    omega
  · rw [heq]
    simp
  · rw [heq]
    rw [hkey] at hi
    simp
    omega

/-- A cache that is touched by one key after the other. -/
theorem neverOver_foldl {entries : σ → ι → κ × ℤ} {touch : σ → κ → σ}
    (ht : ∀ s key, Touches key (entries s) (entries (touch s key))) {keys : List κ} {s : σ}
    (h : NeverOver keys (entries s)) (more : List κ) :
    NeverOver (keys ++ more) (entries (more.foldl touch s)) := by
  induction more generalizing keys s with
  | nil => rwa [List.append_nil]
  | cons key more ih =>
    have hnext := ih (h.touch (ht s key))
    rwa [List.append_assoc] at hnext

end Ubertooth.Foundations
