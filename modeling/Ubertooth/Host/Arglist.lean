import Ubertooth.Foundations.Loop
import Ubertooth.Interface

/-!
# `arglist.c`: lists of integers

`listOfInts` reads a list of comma separated integers or ranges character by character, twice: first
to count, second to populate the array. What the language leaves undefined, a read past the end of
the argument, a write outside the array or an `int` that does not fit, ends the run with an
`Undefined`.
-/

namespace Ubertooth.Host

open Foundations

/-! ## Characters -/

/-- A character constant. -/
def asc (c : Char) : U8 := BitVec.ofNat 8 c.toNat

/-- `isdigit` -/
def isdigit (c : U8) : Bool := decide (asc '0' ≤ c ∧ c ≤ asc '9')

/-- `isxdigit` -/
def isxdigit (c : U8) : Bool :=
  isdigit c || decide (asc 'a' ≤ c ∧ c ≤ asc 'f') || decide (asc 'A' ≤ c ∧ c ≤ asc 'F')

/-- no built-in test for Octal digits -/
def isodigit (c : U8) : Bool := decide (asc '0' ≤ c ∧ c ≤ asc '7')

/-- `tolower` -/
def tolower (c : U8) : U8 := if asc 'A' ≤ c ∧ c ≤ asc 'Z' then c + 32 else c

/-- A string, without the NUL that ends it. -/
abbrev CString := { s : List U8 // (0 : U8) ∉ s }

/-- A string as it lies in memory. -/
def CString.memory (s : CString) : List U8 := s.val ++ [0]

/-! ## The array -/

/-- What the language leaves undefined. -/
inductive Undefined
  /-- a read past the NUL of the argument -/
  | overread
  /-- a write outside the array -/
  | overwrite
  /-- an `int` that does not fit -/
  | overflow
  /-- a read outside a table -/
  | table
  /-- a loop without end -/
  | endless
  deriving DecidableEq, Repr

/-- `INT_MAX` -/
abbrev intMax : ℤ := 2147483647

/-- The values of an `int`. -/
abbrev FitsInt (x : ℤ) : Prop := -2147483648 ≤ x ∧ x ≤ intMax

/-- `r`, which is `NULL` in the first pass, and `*n`. -/
structure Output where
  r : Option (List ℤ)
  n : ℕ
  deriving DecidableEq, Repr

/-- `if (r) r[*n] = i;` -/
def Output.write (out : Output) (i : ℤ) : Except Undefined (Option (List ℤ)) :=
  match out.r with
  | none => .ok none
  | some cells =>
    if out.n < cells.length then .ok (some (cells.set out.n i)) else .error .overwrite

/-- One more element: `(*n)++` after the write. -/
def Output.emit (out : Output) (i : ℤ) : Except Undefined Output :=
  match out.write i with
  | .error f => .error f
  | .ok r => if FitsInt (out.n + 1) then .ok { r := r, n := out.n + 1 } else .error .overflow

/-- The loop of an upward range, at `i`. -/
def upward (value : ℤ) (x : ℤ × Output) : (ℤ × Output) ⊕ Except Undefined Output :=
  if x.1 ≤ value then
    match x.2.emit x.1 with
    | .error f => .inr (.error f)
    | .ok out => if FitsInt (x.1 + 1) then .inl (x.1 + 1, out) else .inr (.error .overflow)
  else .inr (.ok x.2)

/-- The loop of a downward range, at `i`. -/
def downward (value : ℤ) (x : ℤ × Output) : (ℤ × Output) ⊕ Except Undefined Output :=
  if value ≤ x.1 then
    match x.2.emit x.1 with
    | .error f => .inr (.error f)
    | .ok out => if FitsInt (x.1 - 1) then .inl (x.1 - 1, out) else .inr (.error .overflow)
  else .inr (.ok x.2)

/-- The elements of a range or of a single value; `firstValue` is -1 for a single value. -/
def emitItem (firstValue value : ℤ) (out : Output) : Except Undefined Output :=
  if 0 ≤ firstValue then
    -- preserve user supplied ordering
    if firstValue < value then
      (iterate (upward value) ((value - firstValue).toNat + 2) (firstValue, out)).getD
        (.error .endless)
    else
      (iterate (downward value) ((firstValue - value).toNat + 2) (firstValue, out)).getD
        (.error .endless)
  else out.emit value

/-! ## The scanner -/

/-- `BASE10` -/
abbrev base10 : ℤ := 10

/-- `OCTAL` -/
abbrev octal : ℤ := 8

/-- `HEX` -/
abbrev hex : ℤ := 16

/-- The variables of the scanner. -/
structure Scan where
  /-- the memory from `*p` on -/
  p : List U8
  value : ℤ := 0
  /-- TRUE if value has a calculated value -/
  valueValid : Bool := false
  firstValue : ℤ := -1
  base : ℤ := base10
  /-- TRUE if reading the 1st char of token -/
  firstChar : Bool := true
  /-- TRUE if just parsed token -/
  haveToken : Bool := false
  out : Output
  deriving DecidableEq, Repr

/-- A token parser, on the memory from `p` on: the value and the number of characters consumed, if
it finds a token. -/
abbrev TokenParser := List U8 → Except Undefined (Option (ℤ × ℕ))

/-- What a pass comes to: the output, or nothing if it fails. -/
abbrev PassResult := Except Undefined (Option Output)

/-- A token, where `*p` is `%`. With nothing consumed the same token is parsed for ever. -/
def takeToken (parse : TokenParser) (x : Scan) : Scan ⊕ PassResult :=
  match parse x.p with
  | .error f => .inr (.error f)
  -- failed to parse token
  | .ok none => .inr (.ok none)
  | .ok (some (value, size)) =>
    if size = 0 then .inr (.error .endless)
    else
      .inl { x with value := value, valueValid := true, haveToken := true, p := x.p.drop size }

/-- The end of a value: `c` is `,` or NUL. -/
def endOfValue (c : U8) (rest : List U8) (x : Scan) : Scan ⊕ PassResult :=
  -- value omitted
  if !x.valueValid then .inr (.ok none)
  else
    match emitItem x.firstValue x.value x.out with
    | .error f => .inr (.error f)
    | .ok out =>
      -- end-of-string
      if c = 0 then .inr (.ok (some out))
      else
        .inl { x with
          p := rest
          value := 0
          valueValid := false
          firstValue := -1
          firstChar := true
          haveToken := false
          out := out }

/-- A `-`. -/
def takeDash (rest : List U8) (x : Scan) : Scan ⊕ PassResult :=
  -- invalid range description
  if !x.valueValid then .inr (.ok none)
  else
    .inl { x with
      p := rest
      firstValue := x.value
      value := 0
      valueValid := false
      firstChar := true
      haveToken := false }

/-- `value` after the digit `c`, if `c` is one. -/
def addDigit (value : ℤ) (c : U8) : ℤ :=
  if isdigit c then value + (c.toNat - (asc '0').toNat)
  else if isxdigit c then value + ((tolower c).toNat - (asc 'a').toNat + base10)
  else value

/-- update the value, digit by digit -/
def updateValue (c : U8) (rest : List U8) (x : Scan) : Scan ⊕ PassResult :=
  let value := x.value * x.base
  if ¬FitsInt value then .inr (.error .overflow)
  else if ¬FitsInt (addDigit value c) then .inr (.error .overflow)
  else .inl { x with p := rest, value := addDigit value c }

/-- A valid digit `c`. The first of a value gives the base; after a prefix `0x`, whatever comes next
is taken for a digit. -/
def takeDigit (c : U8) (rest : List U8) (x : Scan) : Scan ⊕ PassResult :=
  let x := { x with valueValid := true }
  if x.firstChar then
    let x := { x with firstChar := false }
    if c = asc '0' then
      match rest with
      | [] => .inr (.error .overread)
      | d :: rest' =>
        if d = asc 'x' then
          match rest' with
          | [] => .inr (.error .overread)
          | c' :: rest'' => updateValue c' rest'' { x with base := hex }
        else updateValue c rest { x with base := octal }
    else if isxdigit c && !isdigit c then updateValue c rest { x with base := hex }
    else updateValue c rest { x with base := base10 }
  -- invalid octal digit
  else if x.base = octal ∧ !isodigit c then .inr (.ok none)
  else updateValue c rest x

/-- The body of the loop over the characters. -/
def scanStep (tokenParser : Option TokenParser) (x : Scan) : Scan ⊕ PassResult :=
  match x.p with
  | [] => .inr (.error .overread)
  | c :: rest =>
    match if x.firstChar && c == asc '%' then tokenParser else none with
    | some parse => takeToken parse x
    | none =>
      if c = asc ',' ∨ c = 0 then endOfValue c rest x
      else if c = asc '-' then takeDash rest x
      else if !x.haveToken && isxdigit c then takeDigit c rest x
      -- invalid character
      else .inr (.ok none)

/-- One pass over the argument. -/
def scan (tokenParser : Option TokenParser) (arg : CString) (r : Option (List ℤ)) : PassResult :=
  (iterate (scanStep tokenParser) (arg.memory.length + 1)
    { p := arg.memory, out := { r := r, n := 0 } }).getD (.error .endless)

/-- `listOfInts`: what it returns, and `*n`. `malloc` gives the array of so many `int`s, if there is
memory for it. -/
def listOfInts (malloc : (n : ℕ) → Option (Vector ℤ n)) (arg : Option CString)
    (tokenParser : Option TokenParser) : Except Undefined (Option (List ℤ) × ℤ) :=
  match arg with
  | none => .ok (none, 0)
  | some arg =>
    -- loop runs twice, first to count, second to populate allocated memory
    match scan tokenParser arg none with
    | .error f => .error f
    | .ok none => .ok (none, -1)
    | .ok (some counted) =>
      match malloc counted.n with
      -- could not allocate memory
      | none => .ok (none, -1)
      | some cells =>
        match scan tokenParser arg (some cells.toList) with
        | .error f => .error f
        | .ok none => .ok (none, -1)
        | .ok (some out) => .ok (out.r, out.n)

end Ubertooth.Host
