import Triage.Decimal.Stepwise

/-!
# JSON values

Values of the data format as they are written: numbers as numerals, members of objects in their
order with repetitions.
-/

namespace Triage

/-- A number as it is written. -/
structure JsonNumber where
  negative : Bool
  numeral : Numeral
deriving DecidableEq, Repr

/-- The text of a string; absent when an escape names half of a pair of units and the other half
does not stand beside it, or when a byte of the string belongs to no character. -/
abbrev JsonText := Option String

/-- A value. -/
inductive Json
  | null
  | bool (b : Bool)
  | number (n : JsonNumber)
  | string (s : JsonText)
  | array (items : List Json)
  | object (members : List (JsonText × Json))
deriving Inhabited

namespace JsonNumber

/-- The integer `i`. -/
def ofInt (i : Int) : JsonNumber := ⟨i < 0, ⟨i.natAbs, [], none⟩⟩

/-- The integer that the number is written as: without point and exponent, and not as a negative
zero. -/
def toInt? (n : JsonNumber) : Option Int :=
  if n.numeral.fraction.isEmpty && n.numeral.exponent.isNone
      && !(n.negative && n.numeral.whole == 0) then
    some (if n.negative then -n.numeral.whole else n.numeral.whole)
  else none

/-- The double-precision number that the number is read as, if it is finite. -/
def toBinary64? (n : JsonNumber) : Option Binary64 := n.numeral.toBinary64? n.negative

/-- The characters of the number. -/
def chars (n : JsonNumber) : List Char := (if n.negative then ['-'] else []) ++ n.numeral.chars

/-- The digits at the front of `cs` and what follows them. -/
def takeDigits (cs : List Char) : List Char × List Char := cs.span Char.isDigit

/-- The digits before the point: a single zero or a run that does not start with one. -/
def wholeOf? (ds : List Char) : Option Nat :=
  if ds.isEmpty || ds.head? = some '0' && ds.length ≠ 1 then none else some (Numeral.digitsValue ds)

/-- The fraction at the front of `cs` and what follows it. -/
def fractionOf? : List Char → Option (List Char × List Char)
  | '.' :: cs =>
    let (ds, rest) := takeDigits cs
    if ds.isEmpty then none else some (ds, rest)
  | cs => some ([], cs)

/-- The exponent that `cs` is. -/
def exponentOf? : List Char → Option (Option Int)
  | [] => some none
  | c :: cs =>
    if c = 'e' ∨ c = 'E' then
      let (negative, ds) := match cs with
        | '-' :: ds => (true, ds)
        | '+' :: ds => (false, ds)
        | ds => (false, ds)
      if !ds.isEmpty && ds.all Char.isDigit then
        let e : Int := Numeral.digitsValue ds
        some (some (if negative then -e else e))
      else none
    else none

/-- The number that `cs` is written as. -/
def ofChars? (cs : List Char) : Option JsonNumber := do
  let (negative, cs) := match cs with
    | '-' :: cs => (true, cs)
    | cs => (false, cs)
  let (ds, cs) := takeDigits cs
  let whole ← wholeOf? ds
  let (fraction, cs) ← fractionOf? cs
  let exponent ← exponentOf? cs
  return ⟨negative, whole, fraction, exponent⟩

end JsonNumber

namespace Json

/-- The integer `i`. -/
def int (i : Int) : Json := .number (.ofInt i)

/-- The natural number `n`. -/
def nat (n : Nat) : Json := .int n

/-- The string `s`. -/
def text (s : String) : Json := .string (some s)

/-- A double-precision number; those that are not finite become `null`. -/
def binary64 (x : Binary64) : Json :=
  if x.isFinite then .number ⟨x.negative, Decimal.Style.data.numeral x⟩ else .null

/-- The value, or `null` for none. -/
def optional (o : Option Json) : Json := o.getD .null

/-- An object with members under proper names. -/
def record (members : List (String × Json)) : Json :=
  .object (members.map fun m => (some m.1, m.2))

end Json

end Triage
