import Mathlib

/-!
# Loops that end

The body of a loop either goes on with another state or leaves the loop with a result. `iterate`
goes round as often as its fuel allows; `Ends` is what it comes to without any, so that a loop is
reasoned about round by round (`Leads.ends_iff`). Where every round makes a measure smaller, the
measure is fuel enough (`iterate_eq_of_ends`).
-/

namespace Ubertooth.Foundations

variable {σ ρ : Type*} (body : σ → σ ⊕ ρ)

/-- So many rounds at most, from `s`. -/
def iterate : ℕ → σ → Option ρ
  | 0, _ => none
  | fuel + 1, s =>
    match body s with
    | .inl t => iterate fuel t
    | .inr r => some r

/-- The loop is left with `r`. -/
inductive Ends : σ → ρ → Prop
  | leave {s r} : body s = .inr r → Ends s r
  | again {s t r} : body s = .inl t → Ends t r → Ends s r

/-- Some rounds lead from one state to another. -/
abbrev Leads : σ → σ → Prop := Relation.ReflTransGen fun s t => body s = .inl t

/-- Every round makes the measure smaller. -/
def Shrinks (size : σ → ℕ) : Prop := ∀ s t, body s = .inl t → size t < size s

variable {body} {s t : σ} {r r' : ρ} {size : σ → ℕ}

theorem ends_of_inr (h : body s = .inr r) : Ends body s r' ↔ r' = r := by
  constructor
  · rintro (h' | ⟨h', _⟩)
    · rw [h] at h'
      exact (Sum.inr.inj h').symm
    · rw [h] at h'
      cases h'
  · rintro rfl
    exact .leave h

theorem ends_of_inl (h : body s = .inl t) : Ends body s r ↔ Ends body t r := by
  constructor
  · rintro (h' | ⟨h', hends⟩)
    · rw [h] at h'
      cases h'
    · rw [h] at h'
      rwa [Sum.inl.inj h']
  · exact .again h

theorem Leads.ends_iff (h : Leads body s t) : Ends body s r ↔ Ends body t r := by
  induction h with
  | refl => rfl
  | tail _ hs ih => rw [ih, ends_of_inl hs]

theorem leads_of_inl (h : body s = .inl t) : Leads body s t := .single h

theorem Ends.unique (h : Ends body s r) (h' : Ends body s r') : r = r' := by
  induction h with
  | leave hs => exact ((ends_of_inr hs).1 h').symm
  | again hs _ ih => exact ih ((ends_of_inl hs).1 h')

/-- The measure is fuel enough. -/
theorem iterate_eq_of_ends (hsize : Shrinks body size) (h : Ends body s r) {fuel : ℕ}
    (hfuel : size s < fuel) : iterate body fuel s = some r := by
  induction h generalizing fuel with
  | leave hs =>
    obtain ⟨fuel, rfl⟩ : ∃ n, fuel = n + 1 := ⟨fuel - 1, by omega⟩
    rw [iterate, hs]
  | again hs _ ih =>
    obtain ⟨fuel, rfl⟩ : ∃ n, fuel = n + 1 := ⟨fuel - 1, by omega⟩
    rw [iterate, hs]
    have hlt := hsize _ _ hs
    exact ih (by omega)

end Ubertooth.Foundations
