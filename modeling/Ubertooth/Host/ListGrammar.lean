import Ubertooth.Host.Arglist

/-!
# The grammar of lists

The grammar in the header of `listOfInts` (`IsNumber`, `IsItem`, `IsList`), and what the scanner
makes of any text at all. It reads a text value by value (`Reads`), where a value may be a `Loose`
number or a token, until it comes to an end (`Ending`): the text is accepted, it is refused, or
something happens that the language leaves undefined. Every text comes to an end (`exists_verdict`),
and a list of the grammar is accepted with the elements it stands for (`accepted_of_isList`).
-/

namespace Ubertooth.Host

/-! ## Numbers -/

/-- The number a digit stands for. -/
def digitValue (c : U8) : ℕ :=
  if isdigit c then c.toNat - 48 else if isxdigit c then (tolower c).toNat - 97 + 10 else 0

/-- The value of the digits after those of `v`. -/
def valueFrom (b v : ℕ) (ds : List U8) : ℕ := ds.foldl (fun v d => v * b + digitValue d) v

/-- The value of the digits. -/
abbrev valueOf (b : ℕ) (ds : List U8) : ℕ := valueFrom b 0 ds

/-- `<number>`, without tokens: a hexadecimal, an octal or a decimal one. -/
inductive IsNumber : List U8 → ℤ → Prop
  | hex (ds) : ds ≠ [] → (∀ d ∈ ds, isxdigit d) →
    IsNumber (asc '0' :: asc 'x' :: ds) (valueOf 16 ds)
  | octal (ds) : (∀ d ∈ ds, isodigit d) → IsNumber (asc '0' :: ds) (valueOf 8 ds)
  | decimal (d ds) : isdigit d → d ≠ asc '0' → (∀ e ∈ ds, isdigit e) →
    IsNumber (d :: ds) (valueOf 10 (d :: ds))

/-- Numbers, and hexadecimal ones that start with a letter. -/
inductive IsNumberOrLetters : List U8 → ℤ → Prop
  | number {s x} : IsNumber s x → IsNumberOrLetters s x
  | letters (d ds) : isxdigit d → ¬isdigit d → (∀ e ∈ ds, isxdigit e) →
    IsNumberOrLetters (d :: ds) (valueOf 16 (d :: ds))

/-! ## Lists -/

/-- The integers from one end of a range to the other. -/
def expand (first last : ℤ) : List ℤ :=
  if first ≤ last then (List.range ((last - first).toNat + 1)).map fun (k : ℕ) => first + k
  else (List.range ((first - last).toNat + 1)).map fun (k : ℕ) => first - k

section Grammar

variable (N : List U8 → ℤ → Prop)

/-- `<item>`, with the elements it stands for, over any kind of number. -/
inductive IsItem : List U8 → List ℤ → Prop
  | number {s x} : N s x → IsItem s [x]
  | range {s t x y} : N s x → N t y → IsItem (s ++ asc '-' :: t) (expand x y)

/-- `<list>`, with the elements it stands for. -/
inductive IsList : List U8 → List ℤ → Prop
  | item {s l} : IsItem N s l → IsList s l
  | cons {s t l m} : IsItem N s l → IsList t m → IsList (s ++ asc ',' :: t) (l ++ m)

end Grammar

/-! ## What the scanner reads -/

/-- A number as the scanner has it, with its base and its digits: a decimal one may have letters
after its first digit, and any character may follow `0x`. -/
inductive Loose : List U8 → ℕ → List U8 → Prop
  | octal (ds) : (∀ d ∈ ds, isodigit d) → Loose (asc '0' :: ds) 8 (asc '0' :: ds)
  | decimal (d ds) : isdigit d → d ≠ asc '0' → (∀ e ∈ ds, isxdigit e) → Loose (d :: ds) 10 (d :: ds)
  | letters (d ds) : isxdigit d → ¬isdigit d → (∀ e ∈ ds, isxdigit e) → Loose (d :: ds) 16 (d :: ds)
  | prefixed (c ds) : (∀ e ∈ ds, isxdigit e) → Loose (asc '0' :: asc 'x' :: c :: ds) 16 (c :: ds)

/-- The character is read as one more digit. -/
def Continues (b : ℕ) (c : U8) : Prop := if b = 8 then isodigit c = true else isxdigit c = true

/-- The elements of an item that ends with `x`; `first` is -1 where it is a single value. -/
def itemElements (first x : ℤ) : List ℤ := if 0 ≤ first then expand first x else [x]

/-- Neither the counter of a range nor the number of elements, `l` being those before the item, goes
beyond an `int`. -/
structure ItemFits (first x : ℤ) (l : List ℤ) : Prop where
  count : FitsInt (l ++ itemElements first x).length
  up : 0 ≤ first → first < x → FitsInt (x + 1)
  down : 0 ≤ first → x ≤ first → FitsInt (first - 1) ∧ FitsInt (x - 1)

section Reading

variable (tokenParser : Option TokenParser)

/-- What the token parser says of the text, where a token begins. -/
def TokenAt (t : List U8) (answer : Except Undefined (Option (ℤ × ℕ))) : Prop :=
  ∃ parse, tokenParser = some parse ∧ t.head? = some (asc '%') ∧ parse (t ++ [0]) = answer

/-- A value, with the text that follows. -/
inductive IsValue : List U8 → List U8 → ℤ → Prop
  | number {v b ds} (u) : Loose v b ds → valueOf b ds ≤ intMax → IsValue v u (valueOf b ds)
  | token {v u x} : TokenAt tokenParser (v ++ u) (.ok (some (x, v.length))) → v ≠ [] →
    IsValue v u x

/-- A value may end here. -/
def Separated (w : List U8) : Prop :=
  w = [] ∨ (∃ w', w = asc ',' :: w') ∨ ∃ w', w = asc '-' :: w'

/-- The scanner comes to the beginning of a value: `u` is what is left, `first` the first end of a
range, and `l` are the elements so far. A token right after a token takes its place. -/
inductive Reads (s : List U8) : List U8 → ℤ → List ℤ → Prop
  | start : Reads s s (-1) []
  | comma {v u first x l} : Reads s (v ++ asc ',' :: u) first l →
    IsValue tokenParser v (asc ',' :: u) x → ItemFits first x l →
    Reads s u (-1) (l ++ itemElements first x)
  | dash {v u first x l} : Reads s (v ++ asc '-' :: u) first l →
    IsValue tokenParser v (asc '-' :: u) x → Reads s u x l
  | again {v u first x l} : Reads s (v ++ asc '%' :: u) first l →
    TokenAt tokenParser (v ++ asc '%' :: u) (.ok (some (x, v.length))) → v ≠ [] →
    Reads s (asc '%' :: u) first l

/-- Where a value begins, there is none, or what comes after it cannot. -/
inductive Stuck : List U8 → Prop
  | nil : Stuck []
  | invalid {c u} : ¬isxdigit c → ¬(c = asc '%' ∧ tokenParser.isSome) → Stuck (c :: u)
  | badToken {t} : TokenAt tokenParser t (.ok none) → Stuck t
  | afterNumber {v b ds c u} : Loose v b ds → valueOf b ds ≤ intMax → c ≠ asc ',' → c ≠ asc '-' →
    ¬Continues b c → ¬(v = [asc '0'] ∧ c = asc 'x') → Stuck (v ++ c :: u)
  | afterToken {v x c u} : TokenAt tokenParser (v ++ c :: u) (.ok (some (x, v.length))) → v ≠ [] →
    c ≠ asc ',' → c ≠ asc '-' → c ≠ asc '%' → Stuck (v ++ c :: u)

/-- Where a value begins, the end of the text is passed: `0x` is all that is left, or less than the
token is said to have, or the token parser itself passes it. -/
inductive Over : List U8 → Prop
  | noDigit : Over [asc '0', asc 'x']
  | token {t x size} : TokenAt tokenParser t (.ok (some (x, size))) → t.length < size → Over t
  | parser {t} : TokenAt tokenParser t (.error .overread) → Over t

/-- How the scanner ends where a value begins. -/
inductive Ending (first : ℤ) (l : List ℤ) : List U8 → Except Undefined (Option (List ℤ)) → Prop
  | accepted {v x} : IsValue tokenParser v [] x → ItemFits first x l →
    Ending first l v (.ok (some (l ++ itemElements first x)))
  | refused {u} : Stuck tokenParser u → Ending first l u (.ok none)
  | pastEnd {u} : Over tokenParser u → Ending first l u (.error .overread)
  | tooLarge {v b ds} (u) : Loose v b ds → intMax < valueOf b ds →
    Ending first l (v ++ u) (.error .overflow)
  | tooMany {v u x} : IsValue tokenParser v u x → (u = [] ∨ ∃ w, u = asc ',' :: w) →
    ¬ItemFits first x l → Ending first l (v ++ u) (.error .overflow)
  | endless {t x} : TokenAt tokenParser t (.ok (some (x, 0))) →
    Ending first l t (.error .endless)
  | parser {t f} : TokenAt tokenParser t (.error f) → f ≠ .overread → Ending first l t (.error f)

/-- What becomes of a text. -/
def Verdict (s : List U8) (result : Except Undefined (Option (List ℤ))) : Prop :=
  ∃ u first l, Reads tokenParser s u first l ∧ Ending tokenParser first l u result

end Reading

variable {tokenParser : Option TokenParser} {s u v w : List U8} {first x : ℤ} {l m : List ℤ}

/-! ## Every text comes to an end -/

theorem exists_split (p : U8 → Bool) (t : List U8) :
    ∃ ds w, t = ds ++ w ∧ (∀ d ∈ ds, p d) ∧ ∀ c w', w = c :: w' → ¬p c := by
  induction t with
  | nil => exact ⟨[], [], rfl, by simp, by simp⟩
  | cons c t ih =>
    by_cases hc : p c
    · obtain ⟨ds, w, rfl, hds, hw⟩ := ih
      exact ⟨c :: ds, w, rfl, by simpa using ⟨hc, hds⟩, hw⟩
    · refine ⟨[], c :: t, rfl, by simp, fun d w' h => ?_⟩
      rw [← (List.cons.inj h).1]
      exact hc

/-- What begins with a hex digit is a number as far as it goes, or the prefix `0x` alone. -/
theorem exists_loose {c : U8} (hc : isxdigit c) (t : List U8) :
    c :: t = [asc '0', asc 'x'] ∨ ∃ v b ds w, c :: t = v ++ w ∧ Loose v b ds ∧
      ∀ d w', w = d :: w' → ¬Continues b d ∧ ¬(v = [asc '0'] ∧ d = asc 'x') := by
  by_cases hzero : c = asc '0'
  · subst hzero
    by_cases hx : t.head? = some (asc 'x')
    · obtain ⟨t, rfl⟩ : ∃ t', t = asc 'x' :: t' := ⟨t.tail, (List.eq_cons_of_mem_head? hx)⟩
      cases t with
      | nil => exact .inl rfl
      | cons c t =>
        obtain ⟨ds, w, rfl, hds, hw⟩ := exists_split isxdigit t
        refine .inr ⟨_, 16, _, w, rfl, .prefixed c ds hds, fun d w' h => ⟨hw d w' h, ?_⟩⟩
        simp
    · obtain ⟨ds, w, rfl, hds, hw⟩ := exists_split isodigit t
      refine .inr ⟨_, 8, _, w, rfl, .octal ds hds, fun d w' h => ⟨hw d w' h, ?_⟩⟩
      rintro ⟨hv, rfl⟩
      rw [List.cons_injective.eq_iff] at hv
      simp [hv, h] at hx
  · obtain ⟨ds, w, rfl, hds, hw⟩ := exists_split isxdigit t
    by_cases hdigit : isdigit c
    · refine .inr ⟨_, 10, _, w, rfl, .decimal c ds hdigit hzero hds, fun d w' h => ⟨hw d w' h, ?_⟩⟩
      rintro ⟨hv, -⟩
      exact hzero (List.cons.inj hv).1
    · refine .inr ⟨_, 16, _, w, rfl, .letters c ds hc hdigit hds, fun d w' h => ⟨hw d w' h, ?_⟩⟩
      rintro ⟨hv, -⟩
      exact hzero (List.cons.inj hv).1

theorem Loose.ne_nil {b : ℕ} {ds : List U8} (h : Loose v b ds) : v ≠ [] := by
  cases h <;> simp

theorem IsValue.ne_nil (h : IsValue tokenParser v u x) : v ≠ [] := by
  cases h with
  | number _ hv _ => exact hv.ne_nil
  | token _ hne => exact hne

/-- Every text has come to an end, once it does so from wherever less is left. -/
def EndsBefore (tokenParser : Option TokenParser) (s u : List U8) : Prop :=
  ∀ u' first l, u'.length < u.length → Reads tokenParser s u' first l →
    ∃ result, Verdict tokenParser s result

/-- After a value with a separator or nothing after it. -/
theorem EndsBefore.of_value (ih : EndsBefore tokenParser s (v ++ w))
    (hreads : Reads tokenParser s (v ++ w) first l) (hv : IsValue tokenParser v w x)
    (hw : Separated w) : ∃ result, Verdict tokenParser s result := by
  have hlength := List.length_pos_iff.2 hv.ne_nil
  obtain rfl | ⟨w, rfl⟩ | ⟨w, rfl⟩ := hw
  · by_cases hfits : ItemFits first x l
    · rw [List.append_nil] at hreads
      exact ⟨_, _, _, _, hreads, .accepted hv hfits⟩
    · exact ⟨_, _, _, _, hreads, .tooMany hv (.inl rfl) hfits⟩
  · by_cases hfits : ItemFits first x l
    · exact ih _ _ _ (by simp; omega) (.comma hreads hv hfits)
    · exact ⟨_, _, _, _, hreads, .tooMany hv (.inr ⟨w, rfl⟩) hfits⟩
  · exact ih _ _ _ (by simp; omega) (.dash hreads hv)

theorem separated_or (w : List U8) :
    Separated w ∨ ∃ c w', w = c :: w' ∧ c ≠ asc ',' ∧ c ≠ asc '-' := by
  cases w with
  | nil => exact .inl (.inl rfl)
  | cons c w =>
    by_cases hcomma : c = asc ','
    · exact .inl (.inr (.inl ⟨w, by rw [hcomma]⟩))
    · by_cases hdash : c = asc '-'
      · exact .inl (.inr (.inr ⟨w, by rw [hdash]⟩))
      · exact .inr ⟨c, w, rfl, hcomma, hdash⟩

theorem EndsBefore.of_number {c : U8} (ih : EndsBefore tokenParser s (c :: u))
    (hreads : Reads tokenParser s (c :: u) first l) (hc : isxdigit c) :
    ∃ result, Verdict tokenParser s result := by
  obtain hover | ⟨v, b, ds, w, huw, hv, hw⟩ := exists_loose hc u
  · rw [hover] at hreads
    exact ⟨_, _, _, _, hreads, .pastEnd .noDigit⟩
  · rw [huw] at hreads ih
    by_cases hvalue : (valueOf b ds : ℤ) ≤ intMax
    · obtain hsep | ⟨d, w, rfl, hcomma, hdash⟩ := separated_or w
      · exact ih.of_value hreads (.number w hv hvalue) hsep
      · obtain ⟨hcontinues, hx⟩ := hw d w rfl
        exact ⟨_, _, _, _, hreads,
          .refused (.afterNumber hv hvalue hcomma hdash hcontinues hx)⟩
    · exact ⟨_, _, _, _, hreads, .tooLarge w hv (by omega)⟩

theorem EndsBefore.of_token {parse : TokenParser} (ih : EndsBefore (some parse) s u)
    (hreads : Reads (some parse) s u first l) (hu : u.head? = some (asc '%')) :
    ∃ result, Verdict (some parse) s result := by
  have hanswer : TokenAt (some parse) u (parse (u ++ [0])) := ⟨parse, rfl, hu, rfl⟩
  match hparse : parse (u ++ [0]) with
  | .error f =>
    rw [hparse] at hanswer
    by_cases hf : f = .overread
    · rw [hf] at hanswer
      exact ⟨_, _, _, _, hreads, .pastEnd (.parser hanswer)⟩
    · exact ⟨_, _, _, _, hreads, .parser hanswer hf⟩
  | .ok none =>
    rw [hparse] at hanswer
    exact ⟨_, _, _, _, hreads, .refused (.badToken hanswer)⟩
  | .ok (some (value, size)) =>
    rw [hparse] at hanswer
    by_cases hzero : size = 0
    · rw [hzero] at hanswer
      exact ⟨_, _, _, _, hreads, .endless hanswer⟩
    · by_cases hover : u.length < size
      · exact ⟨_, _, _, _, hreads, .pastEnd (.token hanswer hover)⟩
      · obtain ⟨v, w, rfl, hlength⟩ : ∃ v w, u = v ++ w ∧ v.length = size :=
          ⟨u.take size, u.drop size, (List.take_append_drop size u).symm, by
            rw [List.length_take]; omega⟩
        rw [← hlength] at hanswer hzero
        have hne : v ≠ [] := fun h => hzero (by rw [h]; rfl)
        obtain hsep | ⟨c, w, rfl, hcomma, hdash⟩ := separated_or w
        · exact ih.of_value hreads (.token hanswer hne) hsep
        · by_cases hpercent : c = asc '%'
          · subst hpercent
            have hlt := List.length_pos_iff.2 hne
            exact ih _ _ _ (by simp; omega) (.again hreads hanswer hne)
          · exact ⟨_, _, _, _, hreads,
              .refused (.afterToken hanswer hne hcomma hdash hpercent)⟩

theorem exists_verdict_of_reads (n : ℕ) (u : List U8) (hn : u.length < n)
    (hreads : Reads tokenParser s u first l) : ∃ result, Verdict tokenParser s result := by
  induction n generalizing u first l with
  | zero => omega
  | succ n ih =>
    have hbefore : EndsBefore tokenParser s u := fun u' _ _ hlt => ih u' (by omega)
    cases u with
    | nil => exact ⟨_, _, _, _, hreads, .refused .nil⟩
    | cons c u =>
      by_cases htoken : c = asc '%' ∧ tokenParser.isSome
      · obtain ⟨parse, rfl⟩ := Option.isSome_iff_exists.1 htoken.2
        exact hbefore.of_token hreads (by rw [htoken.1]; rfl)
      · by_cases hc : isxdigit c
        · exact hbefore.of_number hreads hc
        · exact ⟨_, _, _, _, hreads, .refused (.invalid hc htoken)⟩

/-- Every text comes to an end. -/
theorem exists_verdict (tokenParser : Option TokenParser) (s : List U8) :
    ∃ result, Verdict tokenParser s result :=
  exists_verdict_of_reads (s.length + 1) s (by omega) .start

/-! ## The grammar -/

theorem mem_expand {x y z : ℤ} : z ∈ expand x y ↔ min x y ≤ z ∧ z ≤ max x y := by
  unfold expand
  split_ifs with h
  · rw [List.mem_map]
    constructor
    · rintro ⟨k, hk, rfl⟩
      rw [List.mem_range] at hk
      omega
    · intro hz
      have hle : x ≤ z := by omega
      exact ⟨(z - x).toNat, List.mem_range.2 (by omega), by omega⟩
  · rw [List.mem_map]
    constructor
    · rintro ⟨k, hk, rfl⟩
      rw [List.mem_range] at hk
      omega
    · intro hz
      exact ⟨(x - z).toNat, List.mem_range.2 (by omega), by omega⟩

theorem itemElements_single (x : ℤ) : itemElements (-1) x = [x] := by simp [itemElements]

theorem itemElements_range {x : ℤ} (hx : 0 ≤ x) (y : ℤ) : itemElements x y = expand x y :=
  if_pos hx

theorem itemFits_single (hcount : FitsInt (l ++ [x]).length) : ItemFits (-1) x l where
  count := by rwa [itemElements_single]
  up h := absurd h (by omega)
  down h := absurd h (by omega)

theorem itemFits_range {y : ℤ} (hx : 0 ≤ x) (hy : 0 ≤ y) (hm : ∀ z ∈ expand x y, z < intMax)
    (hcount : FitsInt (l ++ expand x y).length) : ItemFits x y l where
  count := by rwa [itemElements_range hx]
  up _ _ := by
    have h := hm y (mem_expand.2 (by omega))
    omega
  down _ _ := by
    have h := hm x (mem_expand.2 (by omega))
    omega

/-- The numbers of a grammar are values, wherever they may end. -/
structure AreValues (tokenParser : Option TokenParser) (N : List U8 → ℤ → Prop) : Prop where
  value : ∀ {v u x}, N v x → x < intMax → Separated u → IsValue tokenParser v u x
  nonneg : ∀ {v x}, N v x → 0 ≤ x

/-- From the beginning of a value an item is read up to its last value. -/
theorem reads_of_isItem {N : List U8 → ℤ → Prop} (hN : AreValues tokenParser N)
    (hv : IsItem N v m) (hw : Separated w) (hreads : Reads tokenParser s (v ++ w) (-1) l)
    (hm : ∀ x ∈ m, x < intMax) (hcount : FitsInt (l ++ m).length) :
    ∃ v' first x, Reads tokenParser s (v' ++ w) first l ∧ IsValue tokenParser v' w x ∧
      ItemFits first x l ∧ itemElements first x = m := by
  cases hv with
  | number hx =>
    exact ⟨_, _, _, hreads, hN.value hx (hm _ (by simp)) hw, itemFits_single hcount,
      itemElements_single _⟩
  | @range s t x y hx hy =>
    have hx0 := hN.nonneg hx
    have hy0 := hN.nonneg hy
    have hvalue := hN.value (u := asc '-' :: (t ++ w)) hx (hm x (mem_expand.2 (by omega)))
      (.inr (.inr ⟨_, rfl⟩))
    rw [List.append_assoc, List.cons_append] at hreads
    exact ⟨_, _, _, .dash hreads hvalue, hN.value hy (hm y (mem_expand.2 (by omega))) hw,
      itemFits_range hx0 hy0 hm hcount, itemElements_range hx0 y⟩

/-- A list of the grammar is accepted, with the elements it stands for. -/
theorem accepted_of_isList {N : List U8 → ℤ → Prop} (hN : AreValues tokenParser N) {t : List U8}
    (ht : IsList N t m) (hreads : Reads tokenParser s t (-1) l) (hm : ∀ x ∈ m, x < intMax)
    (hcount : FitsInt (l ++ m).length) : Verdict tokenParser s (.ok (some (l ++ m))) := by
  induction ht generalizing l with
  | @item v m hv =>
    rw [← List.append_nil v] at hreads
    obtain ⟨v', first, x, hreads, hvalue, hfits, rfl⟩ :=
      reads_of_isItem hN hv (.inl rfl) hreads hm hcount
    rw [List.append_nil] at hreads
    exact ⟨_, _, _, hreads, .accepted hvalue hfits⟩
  | @cons v t m m' hv _ ih =>
    have hcount' : FitsInt (l ++ m).length := by
      simp only [List.length_append] at hcount ⊢
      omega
    obtain ⟨v', first, x, hreads, hvalue, hfits, rfl⟩ :=
      reads_of_isItem hN hv (.inr (.inl ⟨t, rfl⟩)) hreads
        (fun x hx => hm x (List.mem_append_left _ hx)) hcount'
    rw [← List.append_assoc] at hcount ⊢
    exact ih (.comma hreads hvalue hfits) (fun x hx => hm x (List.mem_append_right _ hx)) hcount

/-- The numbers of the grammar are numbers of the scanner. -/
theorem loose_of_isNumber (h : IsNumber v x) : ∃ b ds, Loose v b ds ∧ x = valueOf b ds := by
  cases h with
  | hex ds hne hds =>
    obtain ⟨d, ds, rfl⟩ := List.exists_cons_of_ne_nil hne
    exact ⟨16, d :: ds, .prefixed d ds fun e he => hds e (List.mem_cons_of_mem d he), rfl⟩
  | octal ds hds =>
    exact ⟨8, asc '0' :: ds, .octal ds hds, rfl⟩
  | decimal d ds hd hne hds =>
    exact ⟨10, d :: ds, .decimal d ds hd hne fun e he => by simp [isxdigit, hds e he], rfl⟩

theorem areValues_isNumber : AreValues tokenParser IsNumber where
  value hx hlt _ := by
    obtain ⟨b, ds, hv, rfl⟩ := loose_of_isNumber hx
    exact .number _ hv (by omega)
  nonneg hx := by
    obtain ⟨b, ds, -, rfl⟩ := loose_of_isNumber hx
    omega

end Ubertooth.Host
