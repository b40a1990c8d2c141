import Mathlib

/-!
# Memory that is erased by sectors

Sector `n` of a memory holds the positions from `start n` up to `start (n + 1)`. A sector is erased
as a whole (`eraseSector`), and only blank positions are programmed (`program`). A writer that goes
upwards and erases a sector whenever it comes to its start finds every position blank and leaves
what it has not reached yet as the invariant `Written` says: nothing below its base is touched, what
it has passed is written, and the rest of the sector it is in is blank.
-/

namespace Ubertooth.Foundations

variable {α : Type*} (start : ℕ → ℕ) (blank : α)

def InSector (n pos : ℕ) : Prop := start n ≤ pos ∧ pos < start (n + 1)

instance (n pos : ℕ) : Decidable (InSector start n pos) := instDecidableAnd

def eraseSector (n : ℕ) (m : ℕ → α) : ℕ → α := fun pos =>
  if InSector start n pos then blank else m pos

def program (pos len : ℕ) (source : ℕ → α) (m : ℕ → α) : ℕ → α := fun q =>
  if pos ≤ q ∧ q < pos + len then source (q - pos) else m q

/-- The memory after a writer of `contents` has come from `base` to `pos`. -/
structure Written (base : ℕ) (old contents : ℕ → α) (pos : ℕ) (m : ℕ → α) : Prop where
  below : ∀ q < base, m q = old q
  written : ∀ q, base ≤ q → q < pos → m q = contents q
  rest : ∀ n q, start n < pos → InSector start n q → pos ≤ q → m q = blank

variable {start blank} {base pos len n : ℕ} {old contents source m : ℕ → α}

/-- A position lies in one sector only. -/
theorem InSector.unique (hmono : Monotone start) {k : ℕ} (hn : InSector start n pos)
    (hk : InSector start k pos) : n = k := by
  obtain ⟨hn, hn'⟩ := hn
  obtain ⟨hk, hk'⟩ := hk
  rcases lt_trichotomy n k with h | h | h
  · have := hmono (show n + 1 ≤ k from h)
    omega
  · exact h
  · have := hmono (show k + 1 ≤ n from h)
    omega

@[simp] theorem eraseSector_of_mem (h : InSector start n pos) :
    eraseSector start blank n m pos = blank := if_pos h

theorem eraseSector_of_lt (h : pos < start n) : eraseSector start blank n m pos = m pos :=
  if_neg fun hin => absurd hin.1 (by omega)

theorem program_of_lt {q : ℕ} (h : q < pos) : program pos len source m q = m q :=
  if_neg fun hin => absurd hin.1 (by omega)

theorem program_of_le {q : ℕ} (h : pos + len ≤ q) : program pos len source m q = m q :=
  if_neg fun hin => absurd hin.2 (by omega)

/-! ## The writer -/

/-- Nothing is written yet. -/
theorem written_base (hmono : Monotone start) (b : ℕ) :
    Written start blank (start b) old contents (start b) old := by
  refine ⟨fun _ _ => rfl, fun q h1 h2 => absurd h1 (by omega), fun n q hn hin hq => ?_⟩
  have hnb : n + 1 ≤ b := by
    by_contra hlt
    exact absurd (hmono (show b ≤ n by omega)) (by omega)
  have hle : start (n + 1) ≤ start b := hmono hnb
  exact absurd hin.2 (by omega)

/-- At the start of a sector it is erased. -/
theorem Written.erase (hbase : base ≤ start n)
    (h : Written start blank base old contents (start n) m) :
    Written start blank base old contents (start n) (eraseSector start blank n m) := by
  refine ⟨fun q hq => ?_, fun q hb hq => ?_, fun k q hk hin hq => ?_⟩
  · rw [eraseSector_of_lt (by omega), h.below q hq]
  · rw [eraseSector_of_lt hq, h.written q hb hq]
  · by_cases hsame : InSector start n q
    · exact eraseSector_of_mem hsame
    · exact (if_neg hsame).trans (h.rest k q hk hin hq)

/-- A block that fits into what is blank of its sector is programmed. -/
theorem Written.program (hmono : Monotone start) (hbase : base ≤ pos)
    (h : Written start blank base old contents pos m)
    (hblank : ∀ q, pos ≤ q → q < start (n + 1) → m q = blank)
    (hfit : pos + len ≤ start (n + 1)) (hsource : ∀ k < len, source k = contents (pos + k)) :
    Written start blank base old contents (pos + len) (program pos len source m) := by
  refine ⟨fun q hq => ?_, fun q hb hq => ?_, fun k q hk hkin hq => ?_⟩
  · rw [program_of_lt (by omega), h.below q hq]
  · by_cases hlt : q < pos
    · rw [program_of_lt hlt, h.written q hb hlt]
    · have hplace : pos + (q - pos) = q := by omega
      exact (if_pos ⟨by omega, hq⟩).trans ((hsource (q - pos) (by omega)).trans (by rw [hplace]))
  · rw [program_of_le hq]
    by_cases hkpos : start k < pos
    · exact h.rest k q hkpos hkin (by omega)
    · -- the sector begins in the block, so it is the block's
      have hkn : k ≤ n := by
        by_contra hlt
        have hle : start (n + 1) ≤ start k := hmono (by omega)
        omega
      have hle : start (k + 1) ≤ start (n + 1) := hmono (by omega)
      exact hblank q (by omega) (by obtain ⟨-, hk2⟩ := hkin; omega)

end Ubertooth.Foundations
