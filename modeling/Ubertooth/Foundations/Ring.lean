import Mathlib

/-!
# Rings with free running counters

A ring of `n` slots is read at a counter `head` and holds the `len` values from there on, wrapping
around its end (`contents`). The counters are never reduced: only the slot of a counter is. Writing
the slot past the last value and counting it appends it (`contents_push`), counting the first value
out removes it (`contents_succ`), and a write anywhere past the values held leaves them alone
(`contents_update_of_le`). A ring that is written without end holds the last `n` values
(`HoldsLast.concat`).
-/

namespace Ubertooth.Foundations.Ring

variable {α : Type*} {n : ℕ}

/-- The slot of a counter. -/
def slot [NeZero n] (counter : ℕ) : Fin n := Fin.ofNat n counter

theorem slot_add_eq_iff [NeZero n] (head : ℕ) {i j : ℕ} (hi : i < n) (hj : j < n) :
    (slot (head + i) : Fin n) = slot (head + j) ↔ i = j := by
  constructor
  · intro h
    have hmod : (head + i) % n = (head + j) % n := congrArg Fin.val h
    have hij : i ≡ j [MOD n] := Nat.ModEq.add_left_cancel' head hmod
    rwa [Nat.ModEq, Nat.mod_eq_of_lt hi, Nat.mod_eq_of_lt hj] at hij
  · rintro rfl
    rfl

variable [NeZero n]

/-- The `len` values from `head` on. -/
def contents (slots : Fin n → α) (head len : ℕ) : List α :=
  (List.range len).map fun i => slots (slot (head + i))

@[simp] theorem length_contents (slots : Fin n → α) (head len : ℕ) :
    (contents slots head len).length = len := by
  simp [contents]

@[simp] theorem contents_zero (slots : Fin n → α) (head : ℕ) : contents slots head 0 = [] := rfl

/-- Only the slot of the head matters. -/
theorem contents_congr (slots : Fin n → α) {a b : ℕ} (h : a ≡ b [MOD n]) (len : ℕ) :
    contents slots a len = contents slots b len := by
  apply List.map_congr_left
  intro i _
  have hslot : (slot (a + i) : Fin n) = slot (b + i) := Fin.ext (h.add_right i)
  exact congrArg slots hslot

/-- The first value, and the others. -/
theorem contents_succ (slots : Fin n → α) (head len : ℕ) :
    contents slots head (len + 1) =
      slots (slot head) :: contents slots (head + 1) len := by
  simp only [contents, List.range_succ_eq_map, List.map_cons, List.map_map, Nat.add_zero]
  congr 1
  apply List.map_congr_left
  intro i _
  simp [Nat.add_assoc, Nat.add_comm 1]

/-- The last value, and those before it. -/
theorem contents_succ' (slots : Fin n → α) (head len : ℕ) :
    contents slots head (len + 1) =
      contents slots head len ++ [slots (slot (head + len))] := by
  simp only [contents, List.range_succ, List.map_append, List.map_cons, List.map_nil]

/-- A write past the values held leaves them alone. -/
theorem contents_update_of_le (slots : Fin n → α) (head : ℕ) {len j : ℕ} (hlen : len ≤ j)
    (hj : j < n) (v : α) :
    contents (Function.update slots (slot (head + j)) v) head len = contents slots head len := by
  apply List.map_congr_left
  intro i hi
  have hij : i < j := Nat.lt_of_lt_of_le (List.mem_range.1 hi) hlen
  have hne : (slot (head + j) : Fin n) ≠ slot (head + i) := by
    rw [Ne, slot_add_eq_iff head hj (by omega)]
    omega
  exact Function.update_of_ne hne.symm _ _

/-- Writing the slot past the last value, and counting it, appends it. -/
theorem contents_push (slots : Fin n → α) (head : ℕ) {len : ℕ} (hlen : len < n) (v : α) :
    contents (Function.update slots (slot (head + len)) v) head (len + 1) =
      contents slots head len ++ [v] := by
  rw [contents_succ', contents_update_of_le slots head (Nat.le_refl len) hlen]
  simp

/-! ## A ring that is written over -/

/-- The ring holds the last `n` of the items written to it, the first one in the slot of `first`. -/
def HoldsLast (slots : Fin n → α) (first : ℕ) (items : List α) : Prop :=
  ∀ m (hm : m < items.length), items.length ≤ m + n → slots (slot (first + m)) = items[m]

theorem holdsLast_nil (slots : Fin n → α) (first : ℕ) : HoldsLast slots first [] :=
  fun m hm => absurd hm (Nat.not_lt_zero m)

/-- Writing the next slot keeps the last `n` items. -/
theorem HoldsLast.concat {slots : Fin n → α} {first : ℕ} {items : List α}
    (h : HoldsLast slots first items) (v : α) :
    HoldsLast (Function.update slots (slot (first + items.length)) v) first (items ++ [v]) := by
  intro m hm hlast
  rw [List.length_append, List.length_singleton] at hm hlast
  rcases Nat.lt_or_ge m items.length with hlt | hge
  · have hne : (slot (first + m) : Fin n) ≠ slot (first + items.length) := by
      obtain ⟨d, hd⟩ := Nat.exists_eq_add_of_lt hlt
      have hiff := slot_add_eq_iff (n := n) (first + m) (i := 0) (j := d + 1) (by omega) (by omega)
      rw [hd, Nat.add_assoc m, ← Nat.add_assoc first]
      exact fun heq => absurd (hiff.1 heq) (by omega)
    rw [Function.update_of_ne hne, List.getElem_append_left hlt]
    exact h m hlt (by omega)
  · obtain rfl : m = items.length := by omega
    rw [Function.update_self, List.getElem_append_right hge]
    simp

end Ubertooth.Foundations.Ring
