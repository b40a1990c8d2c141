import Mathlib

/-!
# Chains of commands that may fail

Commands are executed one after the other until one of them answers anything but `good`. The chain
answers `good` exactly if all of its commands do (`chain_fst_iff`), and keeps what they all keep
(`chain_invariant`).
-/

namespace Ubertooth.Foundations

variable {α σ κ : Type*} (exec : α → σ → κ × σ) (good : κ)

/-- Each command in turn answers `good`. -/
def AllGood : List α → σ → Prop
  | [], _ => True
  | a :: as, s => (exec a s).1 = good ∧ AllGood as (exec a s).2

variable {exec good} in
@[simp] theorem allGood_nil (s : σ) : AllGood exec good [] s := trivial

variable {exec good} in
@[simp] theorem allGood_cons (a : α) (as : List α) (s : σ) : AllGood exec good (a :: as) s ↔
    (exec a s).1 = good ∧ AllGood exec good as (exec a s).2 := Iff.rfl

variable [DecidableEq κ]

/-- Execute commands until one fails; the answer is that of the last one executed. -/
def chain : List α → σ → κ × σ
  | [], s => (good, s)
  | a :: as, s => if (exec a s).1 = good then chain as (exec a s).2 else exec a s

variable {exec good}

@[simp] theorem chain_nil (s : σ) : chain exec good [] s = (good, s) := rfl

theorem chain_cons (a : α) (as : List α) (s : σ) : chain exec good (a :: as) s =
    if (exec a s).1 = good then chain exec good as (exec a s).2 else exec a s := rfl

theorem chain_singleton (a : α) (s : σ) : chain exec good [a] s = exec a s := by
  rw [chain_cons, chain_nil]
  split
  case isTrue h => rw [← h]
  case isFalse => rfl

theorem chain_append (as bs : List α) (s : σ) : chain exec good (as ++ bs) s =
    if (chain exec good as s).1 = good then chain exec good bs (chain exec good as s).2
    else chain exec good as s := by
  induction as generalizing s with
  | nil => simp
  | cons a as ih =>
    rw [List.cons_append, chain_cons, chain_cons]
    by_cases h : (exec a s).1 = good
    · rw [if_pos h, if_pos h]
      exact ih _
    · rw [if_neg h, if_neg h, if_neg h]

/-- The chain answers `good` exactly if all of its commands do. -/
theorem chain_fst_iff {as : List α} {s : σ} :
    (chain exec good as s).1 = good ↔ AllGood exec good as s := by
  induction as generalizing s with
  | nil => simp
  | cons a as ih =>
    rw [chain_cons, allGood_cons]
    split
    case isTrue h => rw [ih, and_iff_right h]
    case isFalse h => exact iff_of_false h fun hall => h hall.1

theorem allGood_append {as bs : List α} {s : σ} : AllGood exec good (as ++ bs) s ↔
    AllGood exec good as s ∧ AllGood exec good bs (chain exec good as s).2 := by
  induction as generalizing s with
  | nil => simp
  | cons a as ih =>
    rw [List.cons_append, allGood_cons, allGood_cons, chain_cons]
    by_cases h : (exec a s).1 = good
    · rw [if_pos h, ih, and_assoc]
    · exact iff_of_false (fun hall => h hall.1) fun hall => h hall.1.1

/-- A chain keeps what each of its commands keeps. -/
theorem chain_invariant {I : σ → Prop} {as : List α}
    (hexec : ∀ a ∈ as, ∀ s, I s → I (exec a s).2) {s : σ} (h : I s) :
    I (chain exec good as s).2 := by
  induction as generalizing s with
  | nil => exact h
  | cons a as ih =>
    have hfirst := hexec a List.mem_cons_self s h
    rw [chain_cons]
    split
    · exact ih (fun b hb => hexec b (List.mem_cons_of_mem a hb)) hfirst
    · exact hfirst

end Ubertooth.Foundations
