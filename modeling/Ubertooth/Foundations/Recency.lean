import Ubertooth.Foundations.Runs

/-!
# What was seen recently

A counter of `w` bits numbers the elements as they are seen, each element keeps the number it was
seen with last, and an element is dropped when the counter is `m` ahead of its number. The numbers
wrap; nevertheless what is kept are the last `m` elements seen, whatever happened before
(`kept_run_iff`), for an element that is dropped comes back only when it is seen.
-/

namespace Ubertooth.Foundations

variable {α : Type*} {w : ℕ}

/-- The numbers, and what is kept. -/
structure Recency (α : Type*) (w : ℕ) where
  stamp : α → BitVec w
  counter : BitVec w
  kept : α → Prop

namespace Recency

/-- Nothing seen. -/
def empty : Recency α w where
  stamp _ := 0
  counter := 0
  kept _ := False

variable [DecidableEq α]

/-- An element is seen. -/
def see (m : BitVec w) (x : Recency α w) (a : α) : Recency α w where
  stamp := Function.update x.stamp a (x.counter + 1)
  counter := x.counter + 1
  kept b := (b = a ∨ x.kept b) ∧
    x.counter + 1 - Function.update x.stamp a (x.counter + 1) b < m

theorem see_counter (m : BitVec w) (x : Recency α w) (a : α) :
    (x.see m a).counter = x.counter + 1 := rfl

theorem see_stamp (m : BitVec w) (x : Recency α w) (a : α) :
    (x.see m a).stamp = Function.update x.stamp a (x.counter + 1) := rfl

theorem see_kept (m : BitVec w) (x : Recency α w) (a b : α) : (x.see m a).kept b ↔
    (b = a ∨ x.kept b) ∧ x.counter + 1 - Function.update x.stamp a (x.counter + 1) b < m := Iff.rfl

/-- After the elements of `r`, the last one first: what is kept is among the last `m`, and its
number tells how many were seen since. -/
structure Inv (m : BitVec w) (r : List α) (x : Recency α w) : Prop where
  kept : ∀ b, x.kept b ↔ b ∈ r.take m.toNat
  age : ∀ b, x.kept b → (x.counter - x.stamp b).toNat = r.idxOf b

theorem inv_empty (m : BitVec w) : Inv m [] (empty : Recency α w) where
  kept b := by simp [empty]
  age b h := h.elim

variable {m : BitVec w} {x : Recency α w} {r : List α}

/-- Among the last `m` is what is found before the `m`-th place. -/
theorem Inv.idxOf_lt (h : Inv m r x) {b : α} (hb : x.kept b) : r.idxOf b < m.toNat := by
  have hmem := (h.kept b).1 hb
  exact (List.mem_take_iff_idxOf_lt (List.mem_of_mem_take hmem)).1 hmem

theorem see_kept_self (hm : 0 < m.toNat) (a : α) : (x.see m a).kept a := by
  refine ⟨.inl rfl, ?_⟩
  rw [Function.update_self, BitVec.sub_self]
  exact BitVec.lt_def.2 (by simpa using hm)

/-- What was kept has become older by one. -/
theorem Inv.age_succ (h : Inv m r x) {b : α} (hb : x.kept b) :
    (x.counter + 1 - x.stamp b).toNat = r.idxOf b + 1 := by
  have hage := h.age b hb
  have hlt := h.idxOf_lt hb
  have hw := m.isLt
  have hsub : x.counter + 1 - x.stamp b = x.counter - x.stamp b + 1 := by
    rw [BitVec.sub_eq_add_neg, BitVec.sub_eq_add_neg, BitVec.add_assoc, BitVec.add_comm 1,
      ← BitVec.add_assoc]
  have hone : (1 : BitVec w).toNat = 1 := by
    rw [BitVec.ofNat_eq_ofNat, BitVec.toNat_ofNat,
      Nat.mod_eq_of_lt (show 1 < 2 ^ w by omega)]
  rw [hsub, BitVec.toNat_add, hage, hone, Nat.mod_eq_of_lt (by omega)]

theorem see_kept_of_ne {a b : α} (hb : b ≠ a) :
    (x.see m a).kept b ↔ x.kept b ∧ x.counter + 1 - x.stamp b < m := by
  rw [see_kept, Function.update_of_ne hb, or_iff_right hb]

theorem inv_see (hm : 0 < m.toNat) (h : Inv m r x) (a : α) : Inv m (a :: r) (x.see m a) := by
  have hkept : ∀ b, (x.see m a).kept b ↔ b ∈ (a :: r).take m.toNat := by
    intro b
    obtain ⟨n, hn⟩ : ∃ n, m.toNat = n + 1 := ⟨m.toNat - 1, by omega⟩
    rw [hn, List.take_succ_cons, List.mem_cons]
    by_cases hb : b = a
    · rw [hb]
      exact iff_of_true (see_kept_self hm a) (.inl rfl)
    · rw [see_kept_of_ne hb, or_iff_right hb]
      constructor
      · rintro ⟨hkept, hlt⟩
        rw [BitVec.lt_def, h.age_succ hkept] at hlt
        exact (List.mem_take_iff_idxOf_lt (List.mem_of_mem_take ((h.kept b).1 hkept))).2 (by omega)
      · intro hmem
        have hidx := (List.mem_take_iff_idxOf_lt (List.mem_of_mem_take hmem)).1 hmem
        have hkept : x.kept b :=
          (h.kept b).2 ((List.mem_take_iff_idxOf_lt (List.mem_of_mem_take hmem)).2 (by omega))
        exact ⟨hkept, by rw [BitVec.lt_def, h.age_succ hkept]; omega⟩
  refine ⟨hkept, fun b hb => ?_⟩
  by_cases hba : b = a
  · rw [hba, see_counter, see_stamp, Function.update_self, BitVec.sub_self, List.idxOf_cons_self]
    rfl
  · rw [see_counter, see_stamp, Function.update_of_ne hba, h.age_succ ((see_kept_of_ne hba).1 hb).1,
      List.idxOf_cons_ne r (Ne.symm hba)]

/-- **What is kept** are the last `m` elements seen. -/
theorem kept_run_iff (hm : 0 < m.toNat) (as : List α) (b : α) :
    (run (see m) empty as).kept b ↔ b ∈ as.rtake m.toNat := by
  have hinv : Inv m as.reverse (run (see m) empty as) := by
    induction as using List.reverseRecOn with
    | nil => exact inv_empty m
    | append_singleton as a ih =>
      rw [run_concat, List.reverse_append, List.reverse_singleton, List.singleton_append]
      exact inv_see hm ih a
  rw [hinv.kept, List.rtake_eq_reverse_take_reverse, List.mem_reverse]

end Recency

end Ubertooth.Foundations
