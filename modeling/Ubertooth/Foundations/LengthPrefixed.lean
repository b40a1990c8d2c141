import Mathlib

/-!
# Records behind their lengths

A text of records, each of which begins with an item that says how long the record is, up to an item
that says zero. A reader that goes by the lengths alone comes to each record in turn and stops at
the zero (`stops_flatten`); one that counts the records it is looking for finds the one it wants
(`findNth_eq`).
-/

namespace Ubertooth.Foundations

variable {α β : Type*} (size : α → ℕ)

/-- Where a reader comes to that goes on by the length it finds, as long as it finds one: the rest
of the text at each step. -/
def stops : ℕ → List α → List (List α)
  | 0, _ | _ + 1, [] => []
  | fuel + 1, x :: xs =>
    if size x = 0 then [] else (x :: xs) :: stops fuel ((x :: xs).drop (size x))

/-- A record whose first item says its length. -/
def IsRecord (r : List α) : Prop := ∃ x xs, r = x :: xs ∧ size x = r.length

/-- The records from each one on. -/
def fromEach : List β → List (List β)
  | [] => []
  | r :: rs => (r :: rs) :: fromEach rs

/-- Where the `n`-th item is that is looked for, by a reader that counts the ones it passes. -/
def findNth (p : β → Bool) (n : ℕ) : ℕ → List β → Option β
  | _, [] => none
  | passed, x :: xs =>
    if p x then if passed = n then some x else findNth p n (passed + 1) xs
    else findNth p n passed xs

variable {size}

theorem mem_fromEach {t rs : List β} (h : t ∈ fromEach rs) : ∃ r ts, t = r :: ts ∧ t <:+ rs := by
  induction rs with
  | nil => cases h
  | cons r rs ih =>
    rcases List.mem_cons.1 h with rfl | hmem
    · exact ⟨r, rs, rfl, List.suffix_rfl⟩
    · obtain ⟨r', ts, ht, hsuffix⟩ := ih hmem
      exact ⟨r', ts, ht, hsuffix.trans (List.suffix_cons r rs)⟩

/-- **Each record is come to.** -/
theorem stops_flatten {rs : List (List α)} (hrs : ∀ r ∈ rs, IsRecord size r) {z : α}
    (hz : size z = 0) (rest : List α) {fuel : ℕ} (hfuel : rs.length < fuel) :
    stops size fuel (rs.flatten ++ z :: rest) =
      (fromEach rs).map fun t => t.flatten ++ z :: rest := by
  induction rs generalizing fuel with
  | nil =>
    obtain ⟨k, rfl⟩ := Nat.exists_eq_succ_of_ne_zero hfuel.ne_bot
    exact if_pos hz
  | cons r rs ih =>
    obtain ⟨k, rfl⟩ := Nat.exists_eq_succ_of_ne_zero (Nat.ne_zero_of_lt hfuel)
    obtain ⟨x, xs, rfl, hsize⟩ := hrs r List.mem_cons_self
    have htail := ih (fun r hr => hrs r (List.mem_cons_of_mem _ hr)) (Nat.lt_of_succ_lt_succ hfuel)
    have hne : size x ≠ 0 := by
      rw [hsize]
      exact Nat.succ_ne_zero _
    have hdrop : ((x :: xs) ++ (rs.flatten ++ z :: rest)).drop (size x) =
        rs.flatten ++ z :: rest := by
      rw [hsize, List.drop_left]
    rw [fromEach, List.map_cons, List.flatten_cons, List.append_assoc, List.cons_append, stops,
      if_neg hne, ← List.cons_append, hdrop, htail]

theorem findNth_add (p : β → Bool) (n passed : ℕ) (xs : List β) :
    findNth p (passed + n) passed xs = (xs.filter p)[n]? := by
  induction xs generalizing n passed with
  | nil => rfl
  | cons x xs ih =>
    rw [findNth]
    by_cases hx : p x = true
    · rw [if_pos hx, List.filter_cons_of_pos hx]
      cases n with
      | zero => exact if_pos rfl
      | succ n =>
        rw [if_neg (by omega), Nat.add_comm n, ← Nat.add_assoc, ih, Nat.add_comm 1,
          List.getElem?_cons_succ]
    · rw [if_neg hx, List.filter_cons_of_neg hx, ih]

/-- **The one that is counted to is found.** -/
theorem findNth_eq (p : β → Bool) (n : ℕ) (xs : List β) :
    findNth p n 0 xs = (xs.filter p)[n]? := by
  rw [← findNth_add p n 0, Nat.zero_add]

theorem findNth_map {γ : Type*} (f : γ → β) (p : β → Bool) (n passed : ℕ) (xs : List γ) :
    findNth p n passed (xs.map f) = (findNth (p ∘ f) n passed xs).map f := by
  induction xs generalizing passed with
  | nil => rfl
  | cons x xs ih =>
    rw [List.map_cons, findNth, findNth, ih, ih]
    split_ifs <;> simp_all

end Ubertooth.Foundations
