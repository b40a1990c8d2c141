import Ubertooth.Host.ListGrammar

/-!
# The scanner on any text

The scanner does what `Reads` and `Ending` say: where a value begins its variables are as at the
start but for what has been read (`AtValue`), and both passes go through the same states, the second
with the elements written to the array (`written`). So each pass comes to the verdict on the text
(`scan_of_verdict`).
-/

namespace Ubertooth.Host

open Foundations

variable {tokenParser : Option TokenParser} {s u v w : List U8} {first value x : ℤ} {l : List ℤ}
  {r : Option (List ℤ)} {out : Output} {b : ℕ} {ds : List U8}

/-! ## Elements -/

/-- The output once the elements `l` have been written to the array. -/
def written (r : Option (List ℤ)) (l : List ℤ) : Output where
  r := r.map fun cells => l ++ cells.drop l.length
  n := l.length

/-- The array, if there is one, has room for so many elements. -/
def Room (r : Option (List ℤ)) (n : ℕ) : Prop := ∀ cells, r = some cells → n ≤ cells.length

theorem room_none (n : ℕ) : Room none n := by simp [Room]

theorem Room.mono {m n : ℕ} (h : Room r n) (hmn : m ≤ n) : Room r m :=
  fun cells hr => hmn.trans (h cells hr)

theorem written_some (cells : List ℤ) (l : List ℤ) :
    written (some cells) l = { r := some (l ++ cells.drop l.length), n := l.length } := rfl

theorem write_some (cells : List ℤ) (n : ℕ) (i : ℤ) : Output.write { r := some cells, n := n } i =
    if n < cells.length then .ok (some (cells.set n i)) else .error .overwrite := rfl

theorem write_written (hroom : Room r (l.length + 1)) (i : ℤ) :
    (written r l).write i = .ok (written r (l ++ [i])).r := by
  cases r with
  | none => rfl
  | some cells =>
    have hlt := hroom cells rfl
    have hset : (l ++ cells.drop l.length).set l.length i =
        l ++ [i] ++ cells.drop (l.length + 1) := by
      rw [List.set_append_right _ _ (by omega), Nat.sub_self, List.drop_eq_getElem_cons (by omega),
        List.set_cons_zero, List.append_assoc, List.singleton_append]
    have hlength : l.length < (l ++ cells.drop l.length).length := by
      rw [List.length_append, List.length_drop]
      omega
    rw [written_some, write_some, if_pos hlength, hset, written_some, List.length_append,
      List.length_singleton]

theorem emit_written (hroom : Room r (l.length + 1)) (i : ℤ) : (written r l).emit i =
    if FitsInt (l.length + 1) then .ok (written r (l ++ [i])) else .error .overflow := by
  rw [Output.emit, write_written hroom]
  simp [written]

/-- `k` integers from `i` upward. -/
def upFrom (i : ℤ) (k : ℕ) : List ℤ := (List.range k).map fun (j : ℕ) => i + j

/-- `k` integers from `i` downward. -/
def downFrom (i : ℤ) (k : ℕ) : List ℤ := (List.range k).map fun (j : ℕ) => i - j

/-- A loop that counts writes its values one by one, as long as they and the next are `int`s. -/
theorem ends_count {body : ℤ × Output → (ℤ × Output) ⊕ Except Undefined Output} (value : ℕ → ℤ)
    {k : ℕ} (hgo : ∀ j < k, ∀ out : Output, body (value j, out) =
      match out.emit (value j) with
      | .error f => .inr (.error f)
      | .ok out =>
        if FitsInt (value (j + 1)) then .inl (value (j + 1), out) else .inr (.error .overflow))
    (hstop : ∀ out, body (value k, out) = .inr (.ok out)) (hl : FitsInt l.length)
    (hroom : Room r (l.length + k)) : Ends body (value 0, written r l)
      (if FitsInt (l.length + k) ∧ ∀ j < k, FitsInt (value (j + 1)) then
        .ok (written r (l ++ (List.range k).map value)) else .error .overflow) := by
  induction k generalizing value l with
  | zero =>
    rw [if_pos ⟨by simpa using hl, by simp⟩, List.range_zero, List.map_nil, List.append_nil]
    exact .leave (hstop _)
  | succ k ih =>
    have hstep := hgo 0 (by omega) (written r l)
    rw [emit_written (hroom.mono (by omega))] at hstep
    have hlength : ((l ++ [value 0]).length : ℤ) = l.length + 1 := by simp
    by_cases hn : FitsInt (l.length + 1)
    · rw [if_pos hn] at hstep
      by_cases hnext : FitsInt (value 1)
      · have hroom' : Room r ((l ++ [value 0]).length + k) :=
          hroom.mono (by rw [List.length_append, List.length_singleton]; omega)
        have hrest := ih (fun j => value (j + 1)) (fun j hj => hgo (j + 1) (by omega)) hstop
          (hlength ▸ hn) hroom'
        have hcond : (FitsInt ((l ++ [value 0]).length + k) ∧
            ∀ j < k, FitsInt (value (j + 1 + 1))) ↔
            FitsInt (l.length + (k + 1 : ℕ)) ∧ ∀ j < k + 1, FitsInt (value (j + 1)) := by
          rw [Nat.forall_lt_succ_left, and_iff_right hnext, hlength]
          exact and_congr_left' (by omega)
        simp only [hcond] at hrest
        rw [List.append_assoc, List.singleton_append] at hrest
        rw [List.range_succ_eq_map, List.map_cons, List.map_map]
        exact .again (hstep.trans (if_pos hnext)) hrest
      · rw [if_neg fun h => hnext (h.2 0 (by omega))]
        exact .leave (hstep.trans (if_neg hnext))
    · rw [if_neg hn] at hstep
      rw [if_neg fun h => hn (by omega)]
      exact .leave hstep

/-- The loop of an upward range with `k` elements to go. -/
theorem ends_upward {i : ℤ} {k : ℕ} (hi : 0 ≤ i) (hk : value + 1 = i + k) (hl : FitsInt l.length)
    (hroom : Room r (l.length + k)) : Ends (upward value) (i, written r l)
      (if FitsInt (l.length + k) ∧ (0 < k → FitsInt (value + 1)) then
        .ok (written r (l ++ upFrom i k)) else .error .overflow) := by
  have hgo : ∀ j < k, ∀ out : Output, upward value (i + j, out) =
      match out.emit (i + j) with
      | .error f => .inr (.error f)
      | .ok out =>
        if FitsInt (i + (j + 1 : ℕ)) then .inl (i + (j + 1 : ℕ), out)
        else .inr (.error .overflow) := by
    intro j hj out
    have hle : i + (j : ℤ) ≤ value := by omega
    cases hemit : out.emit (i + j) <;> simp [upward, hle, hemit, add_assoc]
  have hends := ends_count (fun j : ℕ => i + (j : ℤ)) hgo
    (fun out => by rw [upward, if_neg (by simp only; omega)]) hl hroom
  have hcond : (∀ j < k, FitsInt (i + (j + 1 : ℕ))) ↔ (0 < k → FitsInt (value + 1)) := by
    constructor
    · intro h hpos
      have hlast := h (k - 1) (by omega)
      omega
    · intro h j hj
      have hlast := h (by omega)
      omega
  simp only [hcond, Nat.cast_zero, add_zero] at hends
  exact hends

/-- The loop of a downward range with `k` elements to go. -/
theorem ends_downward {i : ℤ} {k : ℕ} (hk : i + 1 = value + k) (hl : FitsInt l.length)
    (hroom : Room r (l.length + k)) : Ends (downward value) (i, written r l)
      (if FitsInt (l.length + k) ∧ (0 < k → FitsInt (i - 1) ∧ FitsInt (value - 1)) then
        .ok (written r (l ++ downFrom i k)) else .error .overflow) := by
  have hgo : ∀ j < k, ∀ out : Output, downward value (i - j, out) =
      match out.emit (i - j) with
      | .error f => .inr (.error f)
      | .ok out =>
        if FitsInt (i - (j + 1 : ℕ)) then .inl (i - (j + 1 : ℕ), out)
        else .inr (.error .overflow) := by
    intro j hj out
    have hle : value ≤ i - (j : ℤ) := by omega
    cases hemit : out.emit (i - j) <;> simp [downward, hle, hemit, sub_sub]
  have hends := ends_count (fun j : ℕ => i - (j : ℤ)) hgo
    (fun out => by rw [downward, if_neg (by simp only; omega)]) hl hroom
  have hcond : (∀ j < k, FitsInt (i - (j + 1 : ℕ))) ↔
      (0 < k → FitsInt (i - 1) ∧ FitsInt (value - 1)) := by
    constructor
    · intro h hpos
      have hfirst := h 0 hpos
      have hlast := h (k - 1) (by omega)
      omega
    · intro h j hj
      have hends := h (by omega)
      omega
  simp only [hcond, Nat.cast_zero, sub_zero] at hends
  exact hends

theorem upward_shrinks (value : ℤ) :
    Shrinks (upward value) fun x : ℤ × Output => (value + 1 - x.1).toNat := by
  intro x y h
  unfold upward at h
  split at h
  case isTrue hle =>
    cases hemit : x.2.emit x.1 with
    | error f => simp [hemit] at h
    | ok out =>
      by_cases hnext : FitsInt (x.1 + 1)
      · simp only [hemit, if_pos hnext, Sum.inl.injEq] at h
        rw [← h]
        simp only
        omega
      · simp [hemit, hnext] at h
  case isFalse => cases h

theorem downward_shrinks (value : ℤ) :
    Shrinks (downward value) fun x : ℤ × Output => (x.1 + 1 - value).toNat := by
  intro x y h
  unfold downward at h
  split at h
  case isTrue hle =>
    cases hemit : x.2.emit x.1 with
    | error f => simp [hemit] at h
    | ok out =>
      by_cases hnext : FitsInt (x.1 - 1)
      · simp only [hemit, if_pos hnext, Sum.inl.injEq] at h
        rw [← h]
        simp only
        omega
      · simp [hemit, hnext] at h
  case isFalse => cases h

theorem itemElements_up (hfirst : 0 ≤ first) (hup : first < x) :
    itemElements first x = upFrom first ((x - first).toNat + 1) := by
  rw [itemElements, if_pos hfirst, expand, if_pos hup.le, upFrom]

theorem itemElements_down (hfirst : 0 ≤ first) (hdown : x ≤ first) :
    itemElements first x = downFrom first ((first - x).toNat + 1) := by
  rw [itemElements, if_pos hfirst, expand]
  split
  case isTrue h =>
    obtain rfl : x = first := by omega
    simp [downFrom]
  case isFalse => rfl

theorem itemElements_of_neg (hfirst : ¬0 ≤ first) : itemElements first x = [x] := if_neg hfirst

@[simp] theorem length_upFrom (i : ℤ) (k : ℕ) : (upFrom i k).length = k := by simp [upFrom]

@[simp] theorem length_downFrom (i : ℤ) (k : ℕ) : (downFrom i k).length = k := by simp [downFrom]

/-- The condition on the counters, for each way to write an item. -/
theorem itemFits_up (hfirst : 0 ≤ first) (hup : first < x) : ItemFits first x l ↔
    FitsInt (l.length + ((x - first).toNat + 1 : ℕ)) ∧
      (0 < (x - first).toNat + 1 → FitsInt (x + 1)) := by
  have hlength : ((l ++ itemElements first x).length : ℤ) =
      l.length + ((x - first).toNat + 1 : ℕ) := by
    rw [itemElements_up hfirst hup, List.length_append, length_upFrom, Nat.cast_add]
  constructor
  · intro h
    exact ⟨hlength ▸ h.count, fun _ => h.up hfirst hup⟩
  · intro h
    exact ⟨hlength ▸ h.1, fun _ _ => h.2 (by omega), fun _ hdown => absurd hdown (by omega)⟩

theorem itemFits_down (hfirst : 0 ≤ first) (hdown : x ≤ first) : ItemFits first x l ↔
    FitsInt (l.length + ((first - x).toNat + 1 : ℕ)) ∧
      (0 < (first - x).toNat + 1 → FitsInt (first - 1) ∧ FitsInt (x - 1)) := by
  have hlength : ((l ++ itemElements first x).length : ℤ) =
      l.length + ((first - x).toNat + 1 : ℕ) := by
    rw [itemElements_down hfirst hdown, List.length_append, length_downFrom, Nat.cast_add]
  constructor
  · intro h
    exact ⟨hlength ▸ h.count, fun _ => h.down hfirst hdown⟩
  · intro h
    exact ⟨hlength ▸ h.1, fun _ hup => absurd hup (by omega), fun _ _ => h.2 (by omega)⟩

theorem itemFits_of_neg (hfirst : ¬0 ≤ first) : ItemFits first x l ↔ FitsInt (l.length + 1) := by
  have hlength : ((l ++ itemElements first x).length : ℤ) = l.length + 1 := by
    rw [itemElements_of_neg hfirst, List.length_append, List.length_singleton, Nat.cast_add,
      Nat.cast_one]
  constructor
  · intro h
    exact hlength ▸ h.count
  · intro h
    exact ⟨hlength ▸ h, fun h' => absurd h' hfirst, fun h' => absurd h' hfirst⟩

open Classical in
/-- An item is written, unless a counter goes beyond an `int`. -/
theorem emitItem_written (hl : FitsInt l.length)
    (hroom : Room r (l ++ itemElements first x).length) : emitItem first x (written r l) =
      if ItemFits first x l then .ok (written r (l ++ itemElements first x))
      else .error .overflow := by
  rw [List.length_append] at hroom
  rw [emitItem]
  by_cases hfirst : 0 ≤ first
  · rw [if_pos hfirst]
    by_cases hup : first < x
    · rw [itemElements_up hfirst hup] at hroom ⊢
      rw [length_upFrom] at hroom
      have hcount : x + 1 = first + ((x - first).toNat + 1 : ℕ) := by omega
      have hends := ends_upward hfirst hcount hl hroom
      rw [if_pos hup, iterate_eq_of_ends (upward_shrinks x) hends (by simp only; omega),
        Option.getD_some]
      simp only [itemFits_up hfirst hup]
    · have hdown : x ≤ first := by omega
      rw [itemElements_down hfirst hdown] at hroom ⊢
      rw [length_downFrom] at hroom
      have hcount : first + 1 = x + ((first - x).toNat + 1 : ℕ) := by omega
      have hends := ends_downward hcount hl hroom
      rw [if_neg hup, iterate_eq_of_ends (downward_shrinks x) hends (by simp only; omega),
        Option.getD_some]
      simp only [itemFits_down hfirst hdown]
  · rw [if_neg hfirst]
    rw [itemElements_of_neg hfirst] at hroom ⊢
    rw [emit_written hroom]
    simp only [itemFits_of_neg hfirst]

/-! ## Numbers -/

/-- The variables after a value or some of its digits. -/
def valueState (base : ℤ) (token : Bool) (p : List U8) (value first : ℤ) (out : Output) : Scan where
  p := p
  value := value
  valueValid := true
  firstValue := first
  base := base
  firstChar := token
  haveToken := token
  out := out

/-- The variables in a number to the base `b`, whose digits so far have the value `k`. -/
abbrev digitState (b : ℕ) (p : List U8) (k : ℕ) (first : ℤ) (out : Output) : Scan :=
  valueState b false p k first out

theorem isxdigit_ne {c : U8} (hc : isxdigit c) :
    c ≠ asc ',' ∧ c ≠ 0 ∧ c ≠ asc '-' ∧ c ≠ asc '%' := by
  refine ⟨?_, ?_, ?_, ?_⟩ <;> rintro rfl <;> revert hc <;> decide

theorem isxdigit_of_isodigit {c : U8} (hc : isodigit c) : isxdigit c := by
  have h : isdigit c := by
    simp only [isodigit, isdigit, decide_eq_true_eq] at hc ⊢
    exact ⟨hc.1, BitVec.le_trans hc.2 (by decide)⟩
  simp [isxdigit, h]

theorem isxdigit_of_continues {b : ℕ} {c : U8} (h : Continues b c) : isxdigit c := by
  unfold Continues at h
  split at h
  case isTrue => exact isxdigit_of_isodigit h
  case isFalse => exact h

theorem le_toNat_of_isdigit {c : U8} (hc : isdigit c) : 48 ≤ c.toNat := by
  rw [isdigit, decide_eq_true_eq, BitVec.le_def] at hc
  exact hc.1

/-- A hex digit that is none is a letter, which `tolower` brings to `a` or beyond. -/
theorem le_toNat_tolower {c : U8} (hc : isxdigit c) (hdigit : ¬isdigit c) :
    97 ≤ (tolower c).toNat := by
  simp only [isxdigit, hdigit, Bool.false_or, Bool.or_eq_true, decide_eq_true_eq,
    BitVec.le_def] at hc
  rw [show (asc 'a').toNat = 97 from rfl, show (asc 'f').toNat = 102 from rfl,
    show (asc 'A').toNat = 65 from rfl, show (asc 'F').toNat = 70 from rfl] at hc
  simp only [tolower, BitVec.le_def]
  rw [show (asc 'A').toNat = 65 from rfl, show (asc 'Z').toNat = 90 from rfl]
  split
  case isTrue h =>
    rw [BitVec.toNat_add, show (32 : U8).toNat = 32 from rfl]
    omega
  case isFalse h => omega

theorem not_continues {b : ℕ} {c : U8} (h : ¬Continues b c) :
    (b : ℤ) = octal ∧ ¬isodigit c ∨ ¬isxdigit c := by
  unfold Continues at h
  split at h
  case isTrue hb => exact .inl ⟨by rw [hb]; rfl, h⟩
  case isFalse => exact .inr h

/-- A digit has the value that the grammar gives it. -/
theorem addDigit_eq (k : ℤ) (c : U8) : addDigit k c = k + digitValue c := by
  have hzero : ((asc '0').toNat : ℤ) = 48 := rfl
  have ha : ((asc 'a').toNat : ℤ) = 97 := rfl
  rw [addDigit, digitValue]
  by_cases hdigit : isdigit c
  · have hle := le_toNat_of_isdigit hdigit
    rw [if_pos hdigit, if_pos hdigit, hzero]
    omega
  · rw [if_neg hdigit, if_neg hdigit]
    by_cases hc : isxdigit c
    · have hle := le_toNat_tolower hc hdigit
      rw [if_pos hc, if_pos hc, ha, base10]
      omega
    · rw [if_neg hc, if_neg hc]
      simp

theorem updateValue_digitState {b k : ℕ} (c : U8) (rest p : List U8) :
    updateValue c rest (digitState b p k first out) =
      if ((k * b + digitValue c : ℕ) : ℤ) ≤ intMax then
        .inl (digitState b rest (k * b + digitValue c) first out)
      else .inr (.error .overflow) := by
  have hvalue : ((k * b + digitValue c : ℕ) : ℤ) = k * b + digitValue c := by push_cast; rfl
  have hnonneg : (0 : ℤ) ≤ k * b := by positivity
  rw [updateValue]
  simp only [addDigit_eq, digitState, valueState, hvalue]
  by_cases hmul : FitsInt ((k : ℤ) * b)
  · rw [if_neg (by simpa using hmul)]
    by_cases hadd : (k : ℤ) * b + digitValue c ≤ intMax
    · rw [if_neg (by omega), if_pos hadd]
    · rw [if_pos (by omega), if_neg hadd]
  · rw [if_pos hmul, if_neg (by omega)]

/-- One more digit. -/
theorem scanStep_digit (tokenParser : Option TokenParser) {b : ℕ} (k : ℕ) {c : U8}
    (hc : Continues b c) (rest : List U8) (first : ℤ) (out : Output) :
    scanStep tokenParser (digitState b (c :: rest) k first out) =
      updateValue c rest (digitState b (c :: rest) k first out) := by
  have hxdigit := isxdigit_of_continues hc
  obtain ⟨hcomma, hnul, hdash, -⟩ := isxdigit_ne hxdigit
  have hoctal : ¬((b : ℤ) = octal ∧ !isodigit c) := by
    rintro ⟨hb, ho⟩
    have hb8 : b = 8 := Nat.cast_injective (R := ℤ) hb
    rw [Continues, if_pos hb8] at hc
    simp [hc] at ho
  rw [scanStep, digitState, valueState]
  simp only [Bool.false_and, Bool.false_eq_true, if_false, hcomma, hnul, hdash, or_self, hxdigit,
    Bool.not_false, Bool.and_self, if_true, takeDigit, hoctal]

theorem valueFrom_cons (b k : ℕ) (d : U8) (ds : List U8) :
    valueFrom b k (d :: ds) = valueFrom b (k * b + digitValue d) ds := rfl

theorem le_valueFrom {b : ℕ} (hb : 0 < b) (k : ℕ) (ds : List U8) : k ≤ valueFrom b k ds := by
  induction ds generalizing k with
  | nil => exact le_rfl
  | cons d ds ih =>
    have hle := Nat.le_mul_of_pos_right k hb
    exact le_trans (by omega) (ih (k * b + digitValue d))

/-- The digits of a number are read, as long as its value is an `int`. -/
theorem leads_digits {b : ℕ} (hb : 0 < b) {ds : List U8} (hds : ∀ d ∈ ds, Continues b d) (k : ℕ)
    (m : List U8) (hk : (valueFrom b k ds : ℤ) ≤ intMax) :
    Leads (scanStep tokenParser) (digitState b (ds ++ m) k first out)
      (digitState b m (valueFrom b k ds) first out) := by
  induction ds generalizing k with
  | nil => exact .refl
  | cons d ds ih =>
    rw [valueFrom_cons] at hk ⊢
    have hle := le_valueFrom hb (k * b + digitValue d) ds
    have hstep : scanStep tokenParser (digitState b (d :: (ds ++ m)) k first out) =
        .inl (digitState b (ds ++ m) (k * b + digitValue d) first out) := by
      rw [scanStep_digit _ _ (hds d List.mem_cons_self), updateValue_digitState, if_pos (by omega)]
    exact .head hstep (ih (fun e he => hds e (List.mem_cons_of_mem d he)) _ hk)

theorem ends_digits {b : ℕ} {ds : List U8} (hds : ∀ d ∈ ds, Continues b d) (k : ℕ) (m : List U8)
    (hk : (k : ℤ) ≤ intMax) (hover : intMax < valueFrom b k ds) :
    Ends (scanStep tokenParser) (digitState b (ds ++ m) k first out) (.error .overflow) := by
  induction ds generalizing k with
  | nil => exact absurd hk (not_le.2 hover)
  | cons d ds ih =>
    rw [valueFrom_cons] at hover
    have hstep := scanStep_digit tokenParser k (hds d List.mem_cons_self) (ds ++ m) first out
    rw [updateValue_digitState] at hstep
    by_cases hle : ((k * b + digitValue d : ℕ) : ℤ) ≤ intMax
    · rw [if_pos hle] at hstep
      exact .again hstep (ih (fun e he => hds e (List.mem_cons_of_mem d he)) _ hle hover)
    · rw [if_neg hle] at hstep
      exact .leave hstep

/-! ## Where a value begins -/

/-- The variables where a value begins: `p` is what is left in memory. Where another token comes
right after a token, the value is the one before, which that token overwrites. -/
structure AtValue (tokenParser : Option TokenParser) (p : List U8) (first : ℤ) (out : Output)
    (x : Scan) : Prop where
  p_eq : x.p = p
  first_eq : x.firstValue = first
  out_eq : x.out = out
  firstChar : x.firstChar = true
  fresh : (x.value = 0 ∧ x.valueValid = false ∧ x.haveToken = false) ∨
    p.head? = some (asc '%') ∧ tokenParser.isSome = true

/-- The variables before a value of which nothing is read. -/
def startState (base : ℤ) (p : List U8) (first : ℤ) (out : Output) : Scan where
  p := p
  firstValue := first
  base := base
  out := out

theorem AtValue.exists_eq {p : List U8} {y : Scan} (hy : AtValue tokenParser p first out y)
    (hp : ¬(p.head? = some (asc '%') ∧ tokenParser.isSome = true)) :
    ∃ base, y = startState base p first out := by
  obtain ⟨hvalue, hvalid, htoken⟩ := hy.fresh.resolve_right hp
  obtain ⟨rfl, rfl, rfl, hfirst, -⟩ := hy
  refine ⟨y.base, ?_⟩
  cases y
  simp_all [startState]

theorem scanStep_first (tokenParser : Option TokenParser) {base : ℤ} {c : U8} (hc : isxdigit c)
    (rest : List U8) :
    scanStep tokenParser (startState base (c :: rest) first out) =
      takeDigit c rest (startState base (c :: rest) first out) := by
  obtain ⟨hcomma, hnul, hdash, hpercent⟩ := isxdigit_ne hc
  have hchar : (c == asc '%') = false := by simpa using hpercent
  rw [scanStep, startState]
  simp only [hchar, Bool.and_false, Bool.false_eq_true, if_false, hcomma, hnul, hdash, or_self, hc,
    Bool.not_false, Bool.and_self, if_true]

/-- The first character of a number gives its base; the digits begin there or after the prefix. -/
theorem takeDigit_loose {b : ℕ} {ds m : List U8} (hv : Loose v b ds) (hm : m ≠ [])
    (hx : v = [asc '0'] → m.head? ≠ some (asc 'x')) (base first : ℤ) (out : Output) :
    ∃ c rest ds' d, v ++ m = c :: rest ∧ isxdigit c ∧ ds = d :: ds' ∧ (∀ e ∈ ds', Continues b e) ∧
      takeDigit c rest (startState base (c :: rest) first out) =
        updateValue d (ds' ++ m) (digitState b (c :: rest) 0 first out) := by
  cases hv with
  | octal ds hds =>
    refine ⟨asc '0', ds ++ m, ds, asc '0', rfl, by decide, rfl,
      fun e he => by simpa [Continues] using hds e he, ?_⟩
    obtain ⟨d, rest, hrest⟩ := List.exists_cons_of_ne_nil (l := ds ++ m) (by simp [hm])
    have hd : d ≠ asc 'x' := by
      rintro rfl
      cases ds with
      | nil => exact hx rfl (by rw [List.nil_append] at hrest; rw [hrest]; rfl)
      | cons e ds =>
        have he := hds e List.mem_cons_self
        rw [(List.cons.inj hrest).1] at he
        revert he
        decide
    rw [hrest]
    simp [takeDigit, startState, hd, updateValue, valueState]
  | decimal d ds hd hne hds =>
    have hxdigit : isxdigit d := by simp [isxdigit, hd]
    refine ⟨_, _, ds, _, rfl, hxdigit, rfl, fun e he => by simpa [Continues] using hds e he, ?_⟩
    simp [takeDigit, startState, hne, hd, updateValue, valueState]
  | letters d ds hd hnd hds =>
    refine ⟨_, _, ds, _, rfl, hd, rfl, fun e he => by simpa [Continues] using hds e he, ?_⟩
    have hne : d ≠ asc '0' := by
      rintro rfl
      exact hnd (by decide)
    simp [takeDigit, startState, hne, hd, hnd, updateValue, valueState]
  | prefixed c ds hds =>
    refine ⟨_, _, ds, _, rfl, by decide, rfl, fun e he => by simpa [Continues] using hds e he, ?_⟩
    simp [takeDigit, startState, updateValue, valueState]

theorem Loose.head (hv : Loose v b ds) : ∃ c v', v = c :: v' ∧ isxdigit c := by
  cases hv with
  | octal ds _ => exact ⟨_, _, rfl, by decide⟩
  | decimal d ds hd _ _ => exact ⟨_, _, rfl, by simp [isxdigit, hd]⟩
  | letters d ds hd _ _ => exact ⟨_, _, rfl, hd⟩
  | prefixed c ds _ => exact ⟨_, _, rfl, by decide⟩

theorem Loose.base_pos (hv : Loose v b ds) : 0 < b := by
  cases hv <;> omega

theorem Loose.not_large (hv : Loose v b ds) (hzero : v = [asc '0']) : ¬intMax < valueOf b ds := by
  cases hv with
  | octal ds _ =>
    rw [(List.cons.inj hzero).2]
    decide
  | decimal d ds _ hne _ => exact absurd (List.cons.inj hzero).1 hne
  | letters d ds _ hnd _ =>
    rw [(List.cons.inj hzero).1] at hnd
    exact absurd (by decide) hnd
  | prefixed c ds _ => cases hzero

/-- A number is read to its end, or up to where its value is no `int` any more. -/
theorem ends_number {m : List U8} {y : Scan} (hy : AtValue tokenParser (v ++ m) first out y)
    (hv : Loose v b ds) (hm : m ≠ []) (hx : v = [asc '0'] → m.head? ≠ some (asc 'x')) :
    ((valueOf b ds : ℤ) ≤ intMax →
      Leads (scanStep tokenParser) y (digitState b m (valueOf b ds) first out)) ∧
    (intMax < valueOf b ds → Ends (scanStep tokenParser) y (.error .overflow)) := by
  obtain ⟨c, v', hcv, hc⟩ := hv.head
  obtain ⟨base, rfl⟩ := hy.exists_eq (by
    rintro ⟨hpercent, -⟩
    rw [hcv, List.cons_append, List.head?_cons, Option.some.injEq] at hpercent
    exact (isxdigit_ne hc).2.2.2 hpercent)
  obtain ⟨c, rest, ds', d, hcv, hc, rfl, hds, hdigit⟩ :=
    takeDigit_loose hv hm hx base first out
  rw [hcv]
  have hstep := (scanStep_first tokenParser hc rest).trans hdigit
  rw [updateValue_digitState] at hstep
  rw [valueOf, valueFrom_cons]
  have hle := le_valueFrom hv.base_pos (0 * b + digitValue d) ds'
  constructor
  · intro hvalue
    rw [if_pos (by omega)] at hstep
    exact .head hstep (leads_digits hv.base_pos hds _ m hvalue)
  · intro hover
    by_cases hd : ((0 * b + digitValue d : ℕ) : ℤ) ≤ intMax
    · rw [if_pos hd] at hstep
      exact .again hstep (ends_digits hds _ m hd hover)
    · rw [if_neg hd] at hstep
      exact .leave hstep

/-- Where a token begins, its parser is asked. -/
theorem AtValue.scanStep_token {parse : TokenParser} {y : Scan} {t : List U8}
    (hy : AtValue (some parse) (t ++ [0]) first out y) (ht : t.head? = some (asc '%')) :
    scanStep (some parse) y = takeToken parse y := by
  obtain ⟨t, rfl⟩ : ∃ t', t = asc '%' :: t' := ⟨t.tail, List.eq_cons_of_mem_head? ht⟩
  rw [scanStep, hy.p_eq, hy.firstChar]
  simp

/-- A token is read as long as the parser says. -/
theorem leads_token {y : Scan} {t : List U8} {size : ℕ}
    (hy : AtValue tokenParser (t ++ [0]) first out y)
    (ht : TokenAt tokenParser t (.ok (some (x, size)))) (hsize : size ≠ 0) :
    Leads (scanStep tokenParser) y
      (valueState y.base true ((t ++ [0]).drop size) x first out) := by
  obtain ⟨parse, rfl, hhead, hparse⟩ := ht
  refine leads_of_inl ?_
  rw [hy.scanStep_token hhead, takeToken, hy.p_eq, hparse]
  simp [hsize, valueState, hy.first_eq, hy.out_eq, hy.firstChar]

theorem ends_of_token {y : Scan} {t : List U8} {answer : Except Undefined (Option (ℤ × ℕ))}
    (hy : AtValue tokenParser (t ++ [0]) first out y) (ht : TokenAt tokenParser t answer) :
    (answer = .ok none → Ends (scanStep tokenParser) y (.ok none)) ∧
    (∀ f, answer = .error f → Ends (scanStep tokenParser) y (.error f)) ∧
    (∀ x, answer = .ok (some (x, 0)) → Ends (scanStep tokenParser) y (.error .endless)) := by
  obtain ⟨parse, rfl, hhead, hparse⟩ := ht
  have hstep := hy.scanStep_token hhead
  rw [takeToken, hy.p_eq, hparse] at hstep
  refine ⟨?_, ?_, ?_⟩
  · rintro rfl
    exact .leave hstep
  · rintro f rfl
    exact .leave hstep
  · rintro x rfl
    exact .leave hstep

/-- A value is read, wherever it may end. -/
theorem leads_value {y : Scan} (hy : AtValue tokenParser (v ++ (w ++ [0])) first out y)
    (hv : IsValue tokenParser v w x) (hw : w.head? ≠ some (asc 'x')) :
    ∃ base token, Leads (scanStep tokenParser) y
      (valueState base token (w ++ [0]) x first out) := by
  cases hv with
  | number w hv hvalue =>
    refine ⟨_, _, (ends_number hy hv (by simp) fun _ => ?_).1 hvalue⟩
    cases w with
    | nil => simp; decide
    | cons c w => simpa using hw
  | token ht hne =>
    rw [← List.append_assoc] at hy
    have hlength : v.length ≠ 0 := by simpa using hne
    have hleads := leads_token hy ht hlength
    rw [List.append_assoc, List.drop_left] at hleads
    exact ⟨_, _, hleads⟩

/-! ## After a value -/

theorem scanStep_separator (tokenParser : Option TokenParser) (base : ℤ) (token : Bool) {c : U8}
    (hc : c = asc ',' ∨ c = 0) (rest : List U8) (x first : ℤ) (out : Output) :
    scanStep tokenParser (valueState base token (c :: rest) x first out) =
      match emitItem first x out with
      | .error f => .inr (.error f)
      | .ok out =>
        if c = 0 then .inr (.ok (some out)) else .inl (startState base rest (-1) out) := by
  have hchar : (c == asc '%') = false := by
    obtain rfl | rfl := hc <;> decide
  rw [scanStep, valueState]
  cases hemit : emitItem first x out <;>
    simp only [hchar, Bool.and_false, Bool.false_eq_true, if_false, hc, if_true, endOfValue,
      Bool.not_true, startState, hemit]

theorem scanStep_dash (tokenParser : Option TokenParser) (base : ℤ) (token : Bool) (rest : List U8)
    (x first : ℤ) (out : Output) :
    scanStep tokenParser (valueState base token (asc '-' :: rest) x first out) =
      .inl (startState base rest x out) := by
  cases token <;> rfl

/-- What can neither go on with a value nor end it is an invalid character. -/
theorem scanStep_invalid (tokenParser : Option TokenParser) (base : ℤ) (token : Bool) {c : U8}
    (hcomma : c ≠ asc ',') (hnul : c ≠ 0) (hdash : c ≠ asc '-')
    (hpercent : token = true → c ≠ asc '%')
    (hdigit : token = false → base = octal ∧ ¬isodigit c ∨ ¬isxdigit c) (rest : List U8)
    (x first : ℤ) (out : Output) :
    scanStep tokenParser (valueState base token (c :: rest) x first out) = .inr (.ok none) := by
  rw [scanStep, valueState]
  cases token with
  | true =>
    have hchar : (c == asc '%') = false := by simpa using hpercent rfl
    simp only [hchar, Bool.and_false, Bool.false_eq_true, if_false, hcomma, hnul, hdash, or_self,
      Bool.not_true, Bool.false_and]
  | false =>
    simp only [Bool.false_and, Bool.false_eq_true, if_false, hcomma, hnul, hdash, or_self,
      Bool.not_false, Bool.true_and]
    split
    case isTrue hc =>
      have hoctal := (hdigit rfl).resolve_right fun h => h hc
      simp [takeDigit, hoctal.1, hoctal.2]
    case isFalse => rfl

theorem AtValue.of_startState (base : ℤ) (p : List U8) (first : ℤ) (out : Output) :
    AtValue tokenParser p first out (startState base p first out) :=
  ⟨rfl, rfl, rfl, rfl, .inl ⟨rfl, rfl, rfl⟩⟩

/-! ## A pass -/

/-- The variables at the start of a pass. -/
def passStart (s : List U8) (r : Option (List ℤ)) : Scan :=
  startState base10 (s ++ [0]) (-1) (written r [])

theorem fitsInt_of_reads (h : Reads tokenParser s u first l) : FitsInt l.length := by
  induction h with
  | start => decide
  | comma _ _ hfits _ => exact hfits.count
  | dash _ _ ih => exact ih
  | again _ _ _ ih => exact ih

/-- What is left to read is the end of the text. -/
theorem suffix_of_reads (h : Reads tokenParser s u first l) : u <:+ s := by
  induction h with
  | start => exact List.suffix_rfl
  | comma _ _ _ ih => exact ((List.suffix_cons _ _).trans (List.suffix_append _ _)).trans ih
  | dash _ _ ih => exact ((List.suffix_cons _ _).trans (List.suffix_append _ _)).trans ih
  | again _ _ _ ih => exact (List.suffix_append _ _).trans ih

/-- The scanner comes to the beginning of a value as `Reads` says. -/
theorem leads_of_reads (hreads : Reads tokenParser s u first l) (hroom : Room r l.length) :
    ∃ y, Leads (scanStep tokenParser) (passStart s r) y ∧
      AtValue tokenParser (u ++ [0]) first (written r l) y := by
  induction hreads with
  | start => exact ⟨_, .refl, .of_startState ..⟩
  | @comma v u first x l hreads hv hfits ih =>
    obtain ⟨y, hlead, hy⟩ := ih (hroom.mono (by simp))
    rw [List.append_assoc] at hy
    obtain ⟨base, token, hvalue⟩ := leads_value hy hv (by simp; decide)
    have hstep := scanStep_separator tokenParser base token (.inl rfl)
      (u ++ [0]) x first (written r l)
    rw [emitItem_written (fitsInt_of_reads hreads) hroom, if_pos hfits] at hstep
    exact ⟨_, (hlead.trans hvalue).tail hstep, .of_startState ..⟩
  | @dash v u first x l hreads hv ih =>
    obtain ⟨y, hlead, hy⟩ := ih hroom
    rw [List.append_assoc] at hy
    obtain ⟨base, token, hvalue⟩ := leads_value hy hv (by simp; decide)
    have hstep := scanStep_dash tokenParser base token (u ++ [0]) x first
      (written r l)
    exact ⟨_, (hlead.trans hvalue).tail hstep, .of_startState ..⟩
  | @again v u first x l hreads ht hne ih =>
    obtain ⟨y, hlead, hy⟩ := ih hroom
    have hvalue := leads_token hy ht (by simpa using hne)
    rw [List.append_assoc, List.drop_left] at hvalue
    obtain ⟨parse, rfl, -⟩ := ht
    exact ⟨_, hlead.trans hvalue, ⟨rfl, rfl, rfl, rfl, .inr ⟨rfl, rfl⟩⟩⟩

/-- Where a value begins, what is neither a digit nor a token is no value. -/
theorem scanStep_noValue {base : ℤ} {c : U8} (hc : ¬isxdigit c)
    (htoken : ¬(c = asc '%' ∧ tokenParser.isSome)) (rest : List U8) :
    scanStep tokenParser (startState base (c :: rest) first out) = .inr (.ok none) := by
  have hnone : (if c == asc '%' then tokenParser else none) = none := by
    split
    case isTrue hpercent =>
      cases tokenParser with
      | none => rfl
      | some parse => exact absurd ⟨by simpa using hpercent, rfl⟩ htoken
    case isFalse => rfl
  rw [scanStep, startState]
  simp only [Bool.true_and, hnone, hc, Bool.not_false, Bool.false_eq_true, if_false, endOfValue,
    takeDash, if_true]
  split_ifs <;> rfl

theorem ends_of_stuck {y : Scan} (hy : AtValue tokenParser (u ++ [0]) first out y)
    (hstuck : Stuck tokenParser u) (hnul : (0 : U8) ∉ u) :
    Ends (scanStep tokenParser) y (.ok none) := by
  cases hstuck with
  | nil =>
    obtain ⟨base, rfl⟩ := hy.exists_eq fun h => absurd h.1 (by decide)
    exact .leave (scanStep_noValue (by decide) (fun h => absurd h.1 (by decide)) [])
  | @invalid c u hc htoken =>
    obtain ⟨base, rfl⟩ := hy.exists_eq fun h => htoken ⟨Option.some.inj h.1, h.2⟩
    exact .leave (scanStep_noValue hc htoken (u ++ [0]))
  | badToken ht => exact (ends_of_token hy ht).1 rfl
  | @afterNumber v b ds c u hv hvalue hcomma hdash hcontinues hx =>
    rw [List.append_assoc] at hy
    have hprefix : v = [asc '0'] → (c :: (u ++ [0])).head? ≠ some (asc 'x') := fun h => by
      simpa using fun hc => hx ⟨h, hc⟩
    have hlead := (ends_number hy hv (by simp) hprefix).1 hvalue
    have hc : c ≠ 0 := by
      rintro rfl
      simp at hnul
    have hstep := scanStep_invalid tokenParser b false hcomma hc hdash (by simp)
      (fun _ => not_continues hcontinues) (u ++ [0]) (valueOf b ds) first out
    exact hlead.ends_iff.2 (.leave hstep)
  | @afterToken v x c u ht hne hcomma hdash hpercent =>
    have hlead := leads_token hy ht (by simpa using hne)
    rw [List.append_assoc, List.drop_left] at hlead
    have hc : c ≠ 0 := by
      rintro rfl
      simp at hnul
    have hstep := scanStep_invalid tokenParser y.base true hcomma hc hdash
      (fun _ => hpercent) (by simp) (u ++ [0]) x first out
    exact hlead.ends_iff.2 (.leave hstep)

theorem ends_of_over {y : Scan} (hy : AtValue tokenParser (u ++ [0]) first out y)
    (hover : Over tokenParser u) : Ends (scanStep tokenParser) y (.error .overread) := by
  cases hover with
  | noDigit =>
    obtain ⟨base, rfl⟩ := hy.exists_eq fun h => absurd h.1 (by decide)
    -- the NUL is taken for a digit, and then there is nothing left
    refine .again (t := digitState 16 [] 0 first out) ?_ (.leave rfl)
    rfl
  | token ht hlt =>
    have hlead := leads_token hy ht (by omega)
    rw [List.drop_eq_nil_of_le (by simp; omega)] at hlead
    exact hlead.ends_iff.2 (.leave rfl)
  | parser ht => exact (ends_of_token hy ht).2.1 _ rfl

/-- How the scanner ends where a value begins. -/
theorem ends_of_ending {y : Scan} (hy : AtValue tokenParser (u ++ [0]) first (written r l) y)
    {result : Except Undefined (Option (List ℤ))} (h : Ending tokenParser first l u result)
    (hnul : (0 : U8) ∉ u) (hl : FitsInt l.length)
    (hroom : r = none ∨ ∃ l', result = .ok (some l') ∧ Room r l'.length) :
    Ends (scanStep tokenParser) y (result.map (Option.map (written r))) := by
  cases h with
  | @accepted v x hv hfits =>
    have hroom' : Room r (l ++ itemElements first x).length := by
      obtain rfl | ⟨l', hresult, hroom⟩ := hroom
      · exact room_none _
      · cases hresult
        exact hroom
    obtain ⟨base, token, hlead⟩ := leads_value (w := []) hy hv (by simp)
    have hstep := scanStep_separator tokenParser base token (.inr rfl) [] x first
      (written r l)
    rw [emitItem_written hl hroom', if_pos hfits] at hstep
    exact hlead.ends_iff.2 (.leave hstep)
  | refused hstuck => exact ends_of_stuck hy hstuck hnul
  | pastEnd hover => exact ends_of_over hy hover
  | @tooLarge v b ds w hv hvalue =>
    rw [List.append_assoc] at hy
    exact (ends_number hy hv (by simp) fun hzero => absurd hvalue (hv.not_large hzero)).2 hvalue
  | @tooMany v w x hv hw hfits =>
    obtain rfl : r = none := by
      obtain h | ⟨l', hresult, -⟩ := hroom
      · exact h
      · cases hresult
    rw [List.append_assoc] at hy
    obtain ⟨base, token, hlead⟩ := leads_value hy hv (by
      obtain rfl | ⟨w, rfl⟩ := hw <;> simp
      decide)
    obtain ⟨c, rest, hc, hmem⟩ : ∃ c rest, (c = asc ',' ∨ c = 0) ∧ w ++ [0] = c :: rest := by
      obtain rfl | ⟨w, rfl⟩ := hw
      · exact ⟨_, _, .inr rfl, rfl⟩
      · exact ⟨_, _, .inl rfl, rfl⟩
    have hstep := scanStep_separator tokenParser base token hc rest x first
      (written none l)
    rw [emitItem_written hl (room_none _), if_neg hfits, ← hmem] at hstep
    exact hlead.ends_iff.2 (.leave hstep)
  | endless ht => exact (ends_of_token hy ht).2.2 _ rfl
  | parser ht _ => exact (ends_of_token hy ht).2.1 _ rfl

/-! ## The measure -/

theorem p_of_updateValue {c : U8} {rest : List U8} {y z : Scan}
    (h : updateValue c rest y = .inl z) : z.p = rest := by
  simp only [updateValue] at h
  split_ifs at h
  exact congrArg Scan.p (Sum.inl.inj h).symm

theorem length_takeDigit {c : U8} {rest : List U8} {y z : Scan}
    (h : takeDigit c rest y = .inl z) : z.p.length ≤ rest.length := by
  unfold takeDigit at h
  simp only at h
  split_ifs at h
  case pos =>
    cases rest with
    | nil => cases h
    | cons d rest =>
      simp only at h
      split_ifs at h
      case pos =>
        cases rest with
        | nil => cases h
        | cons c' rest =>
          rw [p_of_updateValue h]
          simp only [List.length_cons]
          omega
      case neg => rw [p_of_updateValue h]
  all_goals rw [p_of_updateValue h]

theorem length_takeToken {parse : TokenParser} {y z : Scan} (hp : y.p ≠ [])
    (h : takeToken parse y = .inl z) : z.p.length < y.p.length := by
  have hpos := List.length_pos_iff.2 hp
  unfold takeToken at h
  split at h
  case h_1 => cases h
  case h_2 => cases h
  case h_3 value size _ =>
    split_ifs at h with hsize
    rw [← Sum.inl.inj h, List.length_drop]
    omega

theorem p_of_endOfValue {c : U8} {rest : List U8} {y z : Scan}
    (h : endOfValue c rest y = .inl z) : z.p = rest := by
  unfold endOfValue at h
  cases hemit : emitItem y.firstValue y.value y.out with
  | error f => split_ifs at h <;> simp [hemit] at h
  | ok out =>
    simp only [hemit] at h
    split_ifs at h
    exact congrArg Scan.p (Sum.inl.inj h).symm

theorem p_of_takeDash {rest : List U8} {y z : Scan} (h : takeDash rest y = .inl z) :
    z.p = rest := by
  unfold takeDash at h
  split_ifs at h
  exact congrArg Scan.p (Sum.inl.inj h).symm

/-- Every round takes a character at least. -/
theorem scanStep_shrinks (tokenParser : Option TokenParser) :
    Shrinks (scanStep tokenParser) fun y => y.p.length := by
  intro y z h
  change z.p.length < y.p.length
  unfold scanStep at h
  cases hp : y.p with
  | nil => simp [hp] at h
  | cons c rest =>
    have hlength : (c :: rest).length = rest.length + 1 := rfl
    simp only [hp] at h
    split at h
    case h_1 =>
      have hlt := length_takeToken (by simp [hp]) h
      rwa [hp] at hlt
    case h_2 =>
      split_ifs at h
      · rw [p_of_endOfValue h]
        omega
      · rw [p_of_takeDash h]
        omega
      · have hle := length_takeDigit h
        omega

/-! ## Both passes -/

theorem written_nil (r : Option (List ℤ)) : written r [] = { r := r, n := 0 } := by
  cases r <;> rfl

/-- A pass over a text comes to the verdict on it, and leaves the elements in the array. -/
theorem scan_of_verdict {arg : CString} {result : Except Undefined (Option (List ℤ))}
    (h : Verdict tokenParser arg.val result)
    (hroom : r = none ∨ ∃ l', result = .ok (some l') ∧ Room r l'.length) :
    scan tokenParser arg r = result.map (Option.map (written r)) := by
  obtain ⟨u, first, l, hreads, hending⟩ := h
  have hroom' : Room r l.length := by
    obtain rfl | ⟨l', rfl, hroom⟩ := hroom
    · exact room_none _
    · cases hending
      exact hroom.mono (by simp)
  obtain ⟨y, hlead, hy⟩ := leads_of_reads hreads hroom'
  have hnul : (0 : U8) ∉ u := fun h => arg.property ((suffix_of_reads hreads).subset h)
  have hends := hlead.ends_iff.2
    (ends_of_ending hy hending hnul (fitsInt_of_reads hreads) hroom)
  rw [scan, ← written_nil r]
  exact congrArg (fun o => o.getD (.error .endless))
    (iterate_eq_of_ends (scanStep_shrinks tokenParser) hends (Nat.lt_succ_self _))

end Ubertooth.Host
