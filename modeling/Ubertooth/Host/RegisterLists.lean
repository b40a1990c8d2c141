import Ubertooth.Host.ListOfInts
import Ubertooth.Host.Registers

/-!
# Lists of registers

A list may name registers. `token_to_int` finds the register of a name, but takes the length of the
name that stands at the register's number in the table: with the gaps in the numbering this is the
name of another register, or there is no such place. A list comes out as the registers it names
exactly if the two names are of one length for each of them (`meansWhatItSays_iff`).
-/

namespace Ubertooth.Host

/-! ## Names -/

/-- A name of the table. -/
abbrev Register := { e : U8 × List U8 // { num := e.1, name := some e.2 } ∈ cc2400 }

namespace Register

/-- The number of the register. -/
def num (e : Register) : U8 := e.val.1

/-- The characters of its name. -/
def name (e : Register) : List U8 := e.val.2

end Register

/-- The registers whose names are as long as those at their numbers in the table. -/
def namedRight : List U8 :=
  [0x00, 0x01, 0x02, 0x03, 0x04, 0x05, 0x06, 0x07, 0x08, 0x0c, 0x0d, 0x0e, 0x0f, 0x17, 0x1a, 0x1b,
    0x23, 0x24, 0x25, 0x26, 0x27, 0x28, 0x29, 0x2d]

theorem isPrefixOf_append {p a : List U8} {c : U8} (hc : c ∉ p) (m : List U8) :
    p.isPrefixOf (a ++ c :: m) = p.isPrefixOf a := by
  rw [Bool.eq_iff_iff, List.isPrefixOf_iff_prefix, List.isPrefixOf_iff_prefix]
  constructor
  · intro h
    obtain hpa | hap := List.prefix_or_prefix_of_prefix h (List.prefix_append a (c :: m))
    · exact hpa
    · obtain ⟨q, rfl⟩ := hap
      rw [List.prefix_append_right_inj] at h
      cases q with
      | nil => simp
      | cons d q =>
        rw [List.cons_prefix_cons] at h
        exact absurd (by simp [h.1]) hc
  · intro h
    exact h.trans (List.prefix_append a _)

/-- What is in no name ends the search. -/
theorem searchName_append {entries : List RegT} {a : List U8} {c : U8}
    (hc : ∀ e ∈ entries, ∀ n, e.name = some n → c ∉ n) (m : List U8) :
    searchName (a ++ c :: m) entries = searchName a entries := by
  induction entries with
  | nil => rfl
  | cons e entries ih =>
    rw [searchName, searchName, ih fun e he => hc e (List.mem_cons_of_mem _ he)]
    cases hn : e.name with
    | none => rfl
    | some n => simp only [isPrefixOf_append (hc e List.mem_cons_self n hn)]

/-- The characters that may follow a name are in none. -/
theorem not_mem_name : ∀ c ∈ [asc ',', asc '-', 0], ∀ e ∈ cc2400, ∀ n, e.name = some n → c ∉ n := by
  have h : ∀ c ∈ [asc ',', asc '-', 0], ∀ e ∈ cc2400, c ∉ e.name.getD [] := by decide +kernel
  intro c hc e he n hn
  have := h c hc e he
  rwa [hn] at this

/-- What follows a name does not matter. -/
theorem tokenToInt_append {u : List U8} (hu : Separated u) (a : List U8) :
    tokenToInt (a ++ (u ++ [0])) = tokenToInt a := by
  obtain ⟨c, m, hm, hc⟩ : ∃ c m, u ++ [0] = c :: m ∧ c ∈ [asc ',', asc '-', 0] := by
    obtain rfl | ⟨w, rfl⟩ | ⟨w, rfl⟩ := hu
    · exact ⟨_, _, rfl, by simp⟩
    · exact ⟨_, _, rfl, by simp⟩
    · exact ⟨_, _, rfl, by simp⟩
  have hsearch : cc2400Name2reg (a ++ (u ++ [0])) = cc2400Name2reg a := by
    rw [cc2400Name2reg, hm, searchName_append (not_mem_name c hc), cc2400Name2reg]
  rw [tokenToInt, tokenToInt, hsearch]

/-- The parser takes the name for what it is. -/
def Register.Right (e : Register) : Prop :=
  tokenToInt e.name = .ok (some (e.num.toNat, e.name.length))

theorem Register.right_iff (e : Register) : e.Right ↔ e.num ∈ namedRight := by
  have h : ∀ e ∈ cc2400, e.name.isSome = true →
      (tokenToInt (e.name.getD []) = .ok (some (e.num.toNat, (e.name.getD []).length)) ↔
        e.num ∈ namedRight) := by decide +kernel
  exact h _ e.property rfl

/-! ## Lists -/

/-- A value of a list: a number, or a register by its name. -/
inductive ListValue
  | number (s : List U8) (x : ℤ) (h : IsNumber s x)
  | name (e : Register)

namespace ListValue

def text : ListValue → List U8
  | number s _ _ => s
  | name e => e.name

def value : ListValue → ℤ
  | number _ x _ => x
  | name e => e.num.toNat

/-- The register named, with the text that follows the name. -/
def names (u : List U8) : ListValue → List (Register × List U8)
  | number .. => []
  | name e => [(e, u)]

end ListValue

/-- An item of a list. -/
inductive ListItem
  | single (v : ListValue)
  | range (v w : ListValue)

namespace ListItem

def text : ListItem → List U8
  | single v => v.text
  | range v w => v.text ++ asc '-' :: w.text

def elements : ListItem → List ℤ
  | single v => [v.value]
  | range v w => expand v.value w.value

def names (u : List U8) : ListItem → List (Register × List U8)
  | single v => v.names u
  | range v w => v.names (asc '-' :: (w.text ++ u)) ++ w.names u

/-- The numbers and the counter are `int`s, and so is the number of elements after those of `l`. -/
def InRange (l : List ℤ) : ListItem → Prop
  | single v => v.value ≤ intMax ∧ FitsInt (l ++ [v.value]).length
  | range v w => v.value ≤ intMax ∧ w.value ≤ intMax ∧ (v.value < w.value → w.value + 1 ≤ intMax) ∧
      FitsInt (l ++ expand v.value w.value).length

end ListItem

/-- A list of items. -/
inductive ItemList
  | one (i : ListItem)
  | cons (i : ListItem) (is : ItemList)

namespace ItemList

def text : ItemList → List U8
  | one i => i.text
  | cons i is => i.text ++ asc ',' :: is.text

/-- The numbers and the named registers, in order. -/
def elements : ItemList → List ℤ
  | one i => i.elements
  | cons i is => i.elements ++ is.elements

/-- Every register named, with the text that follows its name. -/
def names : ItemList → List (Register × List U8)
  | one i => i.names []
  | cons i is => i.names (asc ',' :: is.text) ++ is.names

/-- Nothing goes beyond an `int`, after the elements `l`. -/
def InRange : List ℤ → ItemList → Prop
  | l, one i => i.InRange l
  | l, cons i is => i.InRange l ∧ is.InRange (l ++ i.elements)

end ItemList

variable {s u w : List U8} {l : List ℤ}

/-! ## What is read of them -/

theorem ListValue.names_follow {v : ListValue} : ∀ n ∈ v.names u, n.2 = u := by
  cases v with
  | number s x h => simp [ListValue.names]
  | name e => simp [ListValue.names]

theorem ListItem.names_separated {i : ListItem} (hu : Separated u) :
    ∀ n ∈ i.names u, Separated n.2 := by
  cases i with
  | single v =>
    intro n hn
    rw [ListValue.names_follow n hn]
    exact hu
  | range v w =>
    intro n hn
    rw [ListItem.names, List.mem_append] at hn
    obtain hn | hn := hn
    · rw [ListValue.names_follow n hn]
      exact .inr (.inr ⟨_, rfl⟩)
    · rw [ListValue.names_follow n hn]
      exact hu

/-- After each name a value may end. -/
theorem ItemList.names_separated (is : ItemList) : ∀ n ∈ is.names, Separated n.2 := by
  induction is with
  | one i => exact ListItem.names_separated (.inl rfl)
  | cons i is ih =>
    intro n hn
    rw [ItemList.names, List.mem_append] at hn
    obtain hn | hn := hn
    · exact ListItem.names_separated (.inr (.inl ⟨_, rfl⟩)) n hn
    · exact ih n hn

theorem Register.head_name (e : Register) : e.name.head? = some (asc '%') := by
  have h : ∀ e ∈ cc2400, e.name.isSome = true →
      (e.name.getD []).head? = some (asc '%') := by decide +kernel
  exact h _ e.property rfl

theorem Register.tokenAt {e : Register} (he : e.Right) (hw : Separated w) :
    TokenAt (some tokenToInt) (e.name ++ w) (.ok (some (e.num.toNat, e.name.length))) := by
  refine ⟨tokenToInt, rfl, ?_, ?_⟩
  · rw [List.head?_append, e.head_name]
    rfl
  · rw [List.append_assoc, tokenToInt_append hw]
    exact he

theorem Register.name_ne_nil (e : Register) : e.name ≠ [] := by
  intro h
  have hhead := e.head_name
  rw [h] at hhead
  cases hhead

theorem ListValue.value_nonneg (v : ListValue) : 0 ≤ v.value := by
  cases v with
  | number s x h =>
    have hvalues : AreValues none IsNumber := areValues_isNumber
    exact hvalues.nonneg h
  | name e => exact Int.natCast_nonneg _

/-- A value is one of the scanner's, if the parser takes the name for what it is and the number is
an `int`. -/
theorem ListValue.isValue {v : ListValue} (hw : Separated w)
    (hright : ∀ n ∈ v.names w, n.1.Right) (hv : v.value ≤ intMax) :
    IsValue (some tokenToInt) v.text w v.value := by
  cases v with
  | number s x h =>
    obtain ⟨b, ds, hloose, rfl⟩ := loose_of_isNumber h
    exact .number w hloose hv
  | name e => exact .token (e.tokenAt (hright (e, w) (by simp [ListValue.names])) hw) e.name_ne_nil

theorem ListValue.tooLarge {v : ListValue} (hv : ¬v.value ≤ intMax) :
    ∃ b ds, Loose v.text b ds ∧ intMax < valueOf b ds := by
  cases v with
  | number s x h =>
    obtain ⟨b, ds, hloose, rfl⟩ := loose_of_isNumber h
    exact ⟨b, ds, hloose, not_le.1 hv⟩
  | name e =>
    refine absurd ?_ hv
    have hlt := e.num.isLt
    rw [ListValue.value, intMax]
    omega

theorem verdict_tooLarge {v : ListValue} {first : ℤ} (hv : ¬v.value ≤ intMax)
    (hreads : Reads (some tokenToInt) s (v.text ++ w) first l) :
    Verdict (some tokenToInt) s (.error .overflow) := by
  obtain ⟨b, ds, hloose, hover⟩ := v.tooLarge hv
  exact ⟨_, _, _, hreads, .tooLarge w hloose hover⟩

theorem itemFits_iff {x y : ℤ} (hx : 0 ≤ x) (hy : 0 ≤ y) (hx' : x ≤ intMax) (hy' : y ≤ intMax) :
    ItemFits x y l ↔ (x < y → y + 1 ≤ intMax) ∧ FitsInt (l ++ expand x y).length := by
  constructor
  · intro h
    have hcount := h.count
    rw [itemElements_range hx] at hcount
    exact ⟨fun hlt => (h.up hx hlt).2, hcount⟩
  · rintro ⟨hup, hcount⟩
    exact ⟨by rwa [itemElements_range hx], fun _ hlt => ⟨by omega, hup hlt⟩, fun _ _ => by omega⟩

/-- From the beginning of a value the item is read, or an `int` overflows. -/
theorem reads_item_or {i : ListItem} (hw : w = [] ∨ ∃ w', w = asc ',' :: w')
    (hreads : Reads (some tokenToInt) s (i.text ++ w) (-1) l)
    (hright : ∀ n ∈ i.names w, n.1.Right) :
    (i.InRange l ∧ ∃ v first x, Reads (some tokenToInt) s (v ++ w) first l ∧
      IsValue (some tokenToInt) v w x ∧ ItemFits first x l ∧ itemElements first x = i.elements) ∨
    ¬i.InRange l ∧ Verdict (some tokenToInt) s (.error .overflow) := by
  have hsep : Separated w := hw.imp_right .inl
  cases i with
  | single v =>
    by_cases hv : v.value ≤ intMax
    · have hvalue := v.isValue hsep hright hv
      by_cases hcount : FitsInt (l ++ [v.value]).length
      · exact .inl ⟨⟨hv, hcount⟩, _, _, _, hreads, hvalue, itemFits_single hcount,
          itemElements_single _⟩
      · refine .inr ⟨fun h => hcount h.2, _, _, _, hreads, .tooMany hvalue hw fun h => ?_⟩
        have hcount' := h.count
        rw [itemElements_single] at hcount'
        exact hcount hcount'
    · exact .inr ⟨fun h => hv h.1, verdict_tooLarge hv hreads⟩
  | range v v' =>
    rw [ListItem.names] at hright
    rw [ListItem.text, List.append_assoc, List.cons_append] at hreads
    by_cases hv : v.value ≤ intMax
    · have hdash := Reads.dash hreads (v.isValue (.inr (.inr ⟨_, rfl⟩))
        (fun n hn => hright n (List.mem_append_left _ hn)) hv)
      by_cases hv' : v'.value ≤ intMax
      · have hvalue := v'.isValue hsep (fun n hn => hright n (List.mem_append_right _ hn)) hv'
        have hiff := itemFits_iff (l := l) v.value_nonneg v'.value_nonneg hv hv'
        by_cases hfits : ItemFits v.value v'.value l
        · exact .inl ⟨⟨hv, hv', hiff.1 hfits⟩, _, _, _, hdash, hvalue, hfits,
            itemElements_range v.value_nonneg _⟩
        · exact .inr ⟨fun h => hfits (hiff.2 h.2.2), _, _, _, hdash, .tooMany hvalue hw hfits⟩
      · exact .inr ⟨fun h => hv' h.2.1, verdict_tooLarge hv' hdash⟩
    · exact .inr ⟨fun h => hv h.1, verdict_tooLarge hv hreads⟩

/-- A list whose names are taken for what they are is accepted with its elements, or an `int`
overflows. -/
theorem verdict_or {is : ItemList} (hright : ∀ n ∈ is.names, n.1.Right)
    (hreads : Reads (some tokenToInt) s is.text (-1) l) :
    is.InRange l ∧ Verdict (some tokenToInt) s (.ok (some (l ++ is.elements))) ∨
      ¬is.InRange l ∧ Verdict (some tokenToInt) s (.error .overflow) := by
  induction is generalizing l with
  | one i =>
    rw [ItemList.text, ← List.append_nil i.text] at hreads
    obtain ⟨hin, v, first, x, hreads, hvalue, hfits, hel⟩ | hout :=
      reads_item_or (.inl rfl) hreads hright
    · rw [List.append_nil] at hreads
      rw [ItemList.elements, ← hel]
      exact .inl ⟨hin, _, _, _, hreads, .accepted hvalue hfits⟩
    · exact .inr hout
  | cons i is ih =>
    rw [ItemList.names] at hright
    obtain ⟨hin, v, first, x, hreads, hvalue, hfits, hel⟩ | ⟨hout, hover⟩ :=
      reads_item_or (.inr ⟨is.text, rfl⟩) hreads
        (fun n hn => hright n (List.mem_append_left _ hn))
    · have hrest := Reads.comma hreads hvalue hfits
      rw [hel] at hrest
      obtain ⟨hin', haccepted⟩ | ⟨hout', hover⟩ :=
        ih (fun n hn => hright n (List.mem_append_right _ hn)) hrest
      · rw [List.append_assoc] at haccepted
        exact .inl ⟨⟨hin, hin'⟩, haccepted⟩
      · exact .inr ⟨fun h => hout' h.2, hover⟩
    · exact .inr ⟨fun h => hout h.1, hover⟩

/-! ## The result -/

/-- Each name is taken for exactly what it is, and the result is the list of the numbers and the
named registers in order. -/
structure MeansWhatItSays (malloc : (n : ℕ) → Option (Vector ℤ n)) (arg : CString)
    (is : ItemList) : Prop where
  tokens : ∀ n ∈ is.names, tokenToInt (n.1.name ++ (n.2 ++ [0])) =
    .ok (some (n.1.num.toNat, n.1.name.length))
  result : listOfInts malloc (some arg) (some tokenToInt) =
    .ok (some is.elements, is.elements.length)

/-- **A list of registers** means what it says exactly if each register it names has a name as long
as the one at its number in the table, and no `int` overflows. -/
theorem meansWhatItSays_iff {malloc : (n : ℕ) → Option (Vector ℤ n)}
    (hmalloc : ∀ n, (malloc n).isSome) {arg : CString} {is : ItemList} (harg : arg.val = is.text) :
    MeansWhatItSays malloc arg is ↔
      (∀ n ∈ is.names, n.1.num ∈ namedRight) ∧ is.InRange [] := by
  have htoken : ∀ n ∈ is.names, tokenToInt (n.1.name ++ (n.2 ++ [0])) =
      .ok (some (n.1.num.toNat, n.1.name.length)) ↔ n.1.num ∈ namedRight := by
    intro n hn
    rw [tokenToInt_append (is.names_separated n hn), ← Register.right_iff]
    rfl
  have hreads : Reads (some tokenToInt) arg.val is.text (-1) [] := by
    rw [harg]
    exact .start
  constructor
  · intro h
    have hnamed : ∀ n ∈ is.names, n.1.num ∈ namedRight :=
      fun n hn => (htoken n hn).1 (h.tokens n hn)
    refine ⟨hnamed, ?_⟩
    obtain ⟨hin, -⟩ | ⟨-, hover⟩ :=
      verdict_or (fun n hn => n.1.right_iff.2 (hnamed n hn)) hreads
    · exact hin
    · have hresult := h.result
      rw [listOfInts_of_error hover] at hresult
      cases hresult
  · rintro ⟨hnamed, hin⟩
    refine ⟨fun n hn => (htoken n hn).2 (hnamed n hn), ?_⟩
    obtain ⟨-, haccepted⟩ | ⟨hout, -⟩ :=
      verdict_or (fun n hn => n.1.right_iff.2 (hnamed n hn)) hreads
    · exact listOfInts_of_accepted haccepted (hmalloc _)
    · exact absurd hin hout

theorem meansWhatItSays_iff_range :
    MeansWhatItSays plenty (text ['%', 'M', 'A', 'I', 'N', '-', '2'] (by decide))
      (.one (.range (.name ⟨(0x00, "%MAIN".toList.map asc), by decide⟩)
        (.number [asc '2'] _ (.decimal (asc '2') [] (by decide) (by decide) (by simp))))) :=
  (meansWhatItSays_iff (fun _ => rfl) rfl).2
    ⟨by simp [ItemList.names, ListItem.names, ListValue.names, Register.num, namedRight], by decide,
      by decide, fun _ => by decide, by decide⟩

/-- One character more is consumed than `%FSMTC` has, and the length of `%SRX` is looked for beyond
the table. -/
theorem not_meansWhatItSays :
    ¬MeansWhatItSays plenty (text ['%', 'F', 'S', 'M', 'T', 'C'] (by decide))
      (.one (.single (.name ⟨(0x0b, "%FSMTC".toList.map asc), by decide⟩))) ∧
    ¬MeansWhatItSays plenty (text ['%', 'S', 'R', 'X'] (by decide))
      (.one (.single (.name ⟨(0x62, "%SRX".toList.map asc), by decide⟩))) := by
  constructor
  · intro h
    exact absurd (h.tokens _ (List.mem_singleton.2 rfl)) (by decide +kernel)
  · intro h
    exact absurd (h.tokens _ (List.mem_singleton.2 rfl)) (by decide +kernel)

end Ubertooth.Host
