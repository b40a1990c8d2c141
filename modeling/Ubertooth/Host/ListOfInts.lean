import Ubertooth.Host.ListScan

/-!
# What `listOfInts` accepts

A list of the grammar comes out as the elements it stands for, and the array has exactly the room
for them (`listOfInts_expands`). What is not in the grammar is refused where the scanner gets stuck
on it. But a decimal number with letters, a range of three ends or a character after `0x` that is no
digit goes through, and a NUL after `0x` is taken for that character, so that the scanner goes on
past the end: exactly then, or if an `int` overflows first, does it not refuse (`rejects_iff`).
-/

namespace Ubertooth.Host

open Foundations

variable {tokenParser : Option TokenParser} {malloc : (n : ℕ) → Option (Vector ℤ n)} {arg : CString}
  {l : List ℤ}

/-! ## The result -/

theorem listOfInts_of_accepted (h : Verdict tokenParser arg.val (.ok (some l)))
    (hmalloc : (malloc l.length).isSome) :
    listOfInts malloc (some arg) tokenParser = .ok (some l, l.length) := by
  obtain ⟨cells, hcells⟩ : ∃ cells, malloc (written none l).n = some cells :=
    Option.isSome_iff_exists.1 hmalloc
  have hlength : cells.toList.length = l.length := Vector.length_toList
  have hcount := scan_of_verdict h (.inl rfl)
  have hroom : Room (some cells.toList) l.length := by
    rintro _ ⟨⟩
    omega
  have hfill := scan_of_verdict h (.inr ⟨l, rfl, hroom⟩)
  have hr : (written (some cells.toList) l).r = some l := by
    rw [written_some, List.drop_eq_nil_of_le (by omega), List.append_nil]
  simp only [listOfInts, hcount, Except.map, Option.map_some, hcells, hfill, hr]
  rfl

theorem listOfInts_of_noMemory (h : Verdict tokenParser arg.val (.ok (some l)))
    (hmalloc : malloc l.length = none) :
    listOfInts malloc (some arg) tokenParser = .ok (none, -1) := by
  have hnone : malloc (written none l).n = none := hmalloc
  simp only [listOfInts, scan_of_verdict h (.inl rfl), Except.map, Option.map_some, hnone]

theorem listOfInts_of_refused (h : Verdict tokenParser arg.val (.ok none)) :
    listOfInts malloc (some arg) tokenParser = .ok (none, -1) := by
  rw [listOfInts, scan_of_verdict h (.inl rfl)]
  rfl

theorem listOfInts_of_error {f : Undefined} (h : Verdict tokenParser arg.val (.error f)) :
    listOfInts malloc (some arg) tokenParser = .error f := by
  rw [listOfInts, scan_of_verdict h (.inl rfl)]
  rfl

/-! ## Lists of the grammar -/

/-- **A list of the grammar** comes out as the elements it stands for, and both passes count the
same. -/
theorem listOfInts_expands (hl : IsList IsNumber arg.val l) (hvalues : ∀ x ∈ l, x < 2 ^ 31 - 1)
    (hcount : l.length < 2 ^ 31) (hmalloc : (malloc l.length).isSome) :
    listOfInts malloc (some arg) tokenParser = .ok (some l, l.length) ∧
      scan tokenParser arg none = .ok (some { r := none, n := l.length }) ∧
      ∀ cells : List ℤ, cells.length = l.length →
        scan tokenParser arg (some cells) = .ok (some { r := some l, n := l.length }) := by
  have h : Verdict tokenParser arg.val (.ok (some ([] ++ l))) :=
    accepted_of_isList areValues_isNumber hl .start hvalues (by
      rw [List.nil_append]
      constructor
      · omega
      · rw [intMax]; omega)
  rw [List.nil_append] at h
  refine ⟨listOfInts_of_accepted h hmalloc, scan_of_verdict h (.inl rfl), fun cells hcells => ?_⟩
  have hroom : Room (some cells) l.length := by
    rintro _ ⟨⟩
    omega
  rw [scan_of_verdict h (.inr ⟨l, rfl, hroom⟩), Except.map, Option.map_some, written_some,
    List.drop_eq_nil_of_le (by omega), List.append_nil]

/-- A text as a string. -/
def text (cs : List Char) (h : (0 : U8) ∉ cs.map asc) : CString := ⟨cs.map asc, h⟩

theorem listOfInts_expands_sample :
    listOfInts (fun n => some (Vector.replicate n 0))
      (some (text ['4', '-', '2', ',', '0', 'x', '1', 'f', ',', '0', '7'] (by decide))) none =
        .ok (some [4, 3, 2, 31, 7], 5) :=
  (listOfInts_expands (l := [4, 3, 2, 31, 7])
    (.cons (.range (IsNumber.decimal (asc '4') [] (by decide) (by decide) (by simp))
        (IsNumber.decimal (asc '2') [] (by decide) (by decide) (by simp)))
      (.cons (.number (IsNumber.hex [asc '1', asc 'f'] (by simp) (by decide)))
        (.item (.number (IsNumber.octal [asc '7'] (by decide))))))
    (by decide) (by decide) rfl).1

/-! ## Everything else -/

/-- There is no token in the text. -/
def Tokenless (tokenParser : Option TokenParser) (arg : CString) : Prop :=
  tokenParser = none ∨ asc '%' ∉ arg.val

/-- The text is in the grammar, with hexadecimal numbers that start with a letter. -/
def InGrammar (arg : CString) : Prop := ∃ l, IsList IsNumberOrLetters arg.val l

/-- What is not in the grammar is refused, and nothing is read past the end. -/
structure Rejects (tokenParser : Option TokenParser) (arg : CString) : Prop where
  refused : Tokenless tokenParser arg → ¬InGrammar arg →
    ∀ malloc, listOfInts malloc (some arg) tokenParser = .ok (none, -1)
  inside : ∀ malloc, listOfInts malloc (some arg) tokenParser ≠ .error .overread

/-- Read value by value, the text comes to where no value can begin, or none can go on. -/
def GetsStuck (tokenParser : Option TokenParser) (arg : CString) : Prop :=
  ∃ u first l, Reads tokenParser arg.val u first l ∧ Stuck tokenParser u

/-- Read value by value, the text comes to where its end is passed. -/
def PassesEnd (tokenParser : Option TokenParser) (arg : CString) : Prop :=
  ∃ u first l, Reads tokenParser arg.val u first l ∧ Over tokenParser u

theorem verdict_ok_none_iff :
    Verdict tokenParser arg.val (.ok none) ↔ GetsStuck tokenParser arg := by
  constructor
  · rintro ⟨u, first, l, hreads, hending⟩
    cases hending with
    | refused hstuck => exact ⟨u, first, l, hreads, hstuck⟩
  · rintro ⟨u, first, l, hreads, hstuck⟩
    exact ⟨u, first, l, hreads, .refused hstuck⟩

theorem verdict_overread_iff :
    Verdict tokenParser arg.val (.error .overread) ↔ PassesEnd tokenParser arg := by
  constructor
  · rintro ⟨u, first, l, hreads, hending⟩
    cases hending with
    | pastEnd hover => exact ⟨u, first, l, hreads, hover⟩
    | parser _ hne => exact absurd rfl hne
  · rintro ⟨u, first, l, hreads, hover⟩
    exact ⟨u, first, l, hreads, .pastEnd hover⟩

/-- Memory for any array. -/
def plenty (n : ℕ) : Option (Vector ℤ n) := some (Vector.replicate n 0)

/-- Each verdict shows in what is returned, where there is memory for the array. -/
theorem verdict_of_listOfInts (tokenParser : Option TokenParser) (arg : CString) :
    (∃ l, listOfInts plenty (some arg) tokenParser = .ok (some l, l.length)) ∨
    listOfInts plenty (some arg) tokenParser = .ok (none, -1) ∧ GetsStuck tokenParser arg ∨
    ∃ f, listOfInts plenty (some arg) tokenParser = .error f := by
  obtain ⟨result, hresult⟩ := exists_verdict tokenParser arg.val
  match result with
  | .ok (some l) => exact .inl ⟨l, listOfInts_of_accepted hresult rfl⟩
  | .ok none =>
    exact .inr (.inl ⟨listOfInts_of_refused hresult, verdict_ok_none_iff.1 hresult⟩)
  | .error f => exact .inr (.inr ⟨f, listOfInts_of_error hresult⟩)

/-- **What is not in the grammar** is refused where the scanner gets stuck on it, and only there. -/
theorem rejects_iff (tokenParser : Option TokenParser) (arg : CString) :
    Rejects tokenParser arg ↔
      (Tokenless tokenParser arg → InGrammar arg ∨ GetsStuck tokenParser arg) ∧
        ¬PassesEnd tokenParser arg := by
  constructor
  · intro h
    constructor
    · intro htokenless
      by_cases hin : InGrammar arg
      · exact .inl hin
      · have hrefused := h.refused htokenless hin plenty
        obtain ⟨l, hl⟩ | ⟨-, hstuck⟩ | ⟨f, hf⟩ := verdict_of_listOfInts tokenParser arg
        · rw [hl] at hrefused
          cases hrefused
        · exact .inr hstuck
        · rw [hf] at hrefused
          cases hrefused
    · intro hpasses
      exact h.inside plenty (listOfInts_of_error (verdict_overread_iff.2 hpasses))
  · rintro ⟨hstuck, hinside⟩
    constructor
    · intro htokenless hout malloc
      exact listOfInts_of_refused (verdict_ok_none_iff.2
        ((hstuck htokenless).resolve_left hout))
    · intro malloc hover
      obtain ⟨result, hresult⟩ := exists_verdict tokenParser arg.val
      match result with
      | .ok none =>
        rw [listOfInts_of_refused hresult] at hover
        cases hover
      | .error f =>
        rw [listOfInts_of_error hresult] at hover
        cases hover
        exact hinside (verdict_overread_iff.1 hresult)
      | .ok (some l) =>
        by_cases hmalloc : (malloc l.length).isSome
        · rw [listOfInts_of_accepted hresult hmalloc] at hover
          cases hover
        · rw [listOfInts_of_noMemory hresult (by simpa using hmalloc)] at hover
          cases hover

/-! ## Characters that are in no list -/

theorem mem_of_isNumberOrLetters {t : List U8} {x : ℤ} (h : IsNumberOrLetters t x) {c : U8}
    (hc : c ∈ t) : isxdigit c ∨ c = asc 'x' := by
  have hdigit : ∀ {d : U8}, isdigit d → isxdigit d := fun hd => by simp [isxdigit, hd]
  cases h with
  | number h =>
    cases h with
    | hex ds _ hds =>
      obtain rfl | rfl | hc := by simpa using hc
      · exact .inl (by decide)
      · exact .inr rfl
      · exact .inl (hds c hc)
    | octal ds hds =>
      obtain rfl | hc := by simpa using hc
      · exact .inl (by decide)
      · exact .inl (isxdigit_of_isodigit (hds c hc))
    | decimal d ds hd _ hds =>
      obtain rfl | hc := by simpa using hc
      · exact .inl (hdigit hd)
      · exact .inl (hdigit (hds c hc))
  | letters d ds hd _ hds =>
    obtain rfl | hc := by simpa using hc
    · exact .inl hd
    · exact .inl (hds c hc)

theorem mem_of_isItem {t : List U8} (h : IsItem IsNumberOrLetters t l) {c : U8} (hc : c ∈ t) :
    isxdigit c ∨ c = asc 'x' ∨ c = asc '-' := by
  cases h with
  | number hx =>
    obtain h | h := mem_of_isNumberOrLetters hx hc
    · exact .inl h
    · exact .inr (.inl h)
  | range hx hy =>
    rw [List.mem_append, List.mem_cons] at hc
    obtain hc | rfl | hc := hc
    · obtain h | h := mem_of_isNumberOrLetters hx hc
      · exact .inl h
      · exact .inr (.inl h)
    · exact .inr (.inr rfl)
    · obtain h | h := mem_of_isNumberOrLetters hy hc
      · exact .inl h
      · exact .inr (.inl h)

theorem mem_of_isList {t : List U8} (h : IsList IsNumberOrLetters t l) {c : U8} (hc : c ∈ t) :
    isxdigit c ∨ c = asc 'x' ∨ c = asc '-' ∨ c = asc ',' := by
  have hitem : ∀ {s m}, IsItem IsNumberOrLetters s m → c ∈ s →
      isxdigit c ∨ c = asc 'x' ∨ c = asc '-' ∨ c = asc ',' := fun hs hc => by
    obtain h | h | h := mem_of_isItem hs hc
    · exact .inl h
    · exact .inr (.inl h)
    · exact .inr (.inr (.inl h))
  induction h with
  | item hs => exact hitem hs hc
  | cons hs _ ih =>
    rw [List.mem_append, List.mem_cons] at hc
    obtain hc | rfl | hc := hc
    · exact hitem hs hc
    · exact .inr (.inr (.inr rfl))
    · exact ih hc

/-- `0xg` is accepted as the list of 0, and `0x` is read past its end. -/
theorem not_rejects_afterPrefix : ¬Rejects none (text ['0', 'x', 'g'] (by decide)) ∧
    ¬Rejects none (text ['0', 'x'] (by decide)) := by
  constructor
  · intro h
    have hout : ¬InGrammar (text ['0', 'x', 'g'] (by decide)) := by
      rintro ⟨l, hl⟩
      have hg := mem_of_isList hl (c := asc 'g') (by decide)
      revert hg
      decide
    exact absurd (h.refused (.inl rfl) hout plenty) (by decide +kernel)
  · intro h
    exact absurd (h.inside plenty) (by decide +kernel)

end Ubertooth.Host
