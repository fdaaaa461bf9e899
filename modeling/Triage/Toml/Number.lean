import Triage.Decimal.Notation
import Triage.Decimal.Rounding

/-!
# Numbers in configuration documents

A number is looked at twice.  The document is refused if a word does not have the form of a number;
whether the number also has a value, and which, shows only where a setting is read.  So a number
out of range does no harm in a place that nothing reads.
-/

namespace Triage.Toml

/-- A number as it is written.  An integer keeps its sign and what stands for its digits, without
the underscores between them. -/
inductive Number
  | integer (base : Nat) (cs : List Char)
  | float (negative : Bool) (n : Numeral)
  | infinity (negative : Bool)
  | nan
deriving DecidableEq, Repr

namespace Number

/-! ## Digits -/

/-- The value of a digit in a base up to sixteen. -/
def digitValue (c : Char) : Nat := if c.isDigit then c.toNat - 48 else (c.toNat ||| 32) - 87

/-- Whether `c` is a digit in a base up to sixteen. -/
def isDigitIn (base : Nat) (c : Char) : Bool := c.isAlphanum && digitValue c < base

/-- The value of digits in a base up to sixteen. -/
def digitsIn (base : Nat) (ds : List Char) : Nat :=
  ds.foldl (fun n c => n * base + digitValue c) 0

/-- The base that a mark behind a leading zero names. -/
def base? : Char → Option Nat
  | 'x' => some 16
  | 'o' => some 8
  | 'b' => some 2
  | _ => none

/-- Whether `c` may stand in a run of decimal digits. -/
def isRunChar (c : Char) : Bool := c.isDigit || c = '_'

/-- Whether each underscore stands behind a digit and before one; `behind` says whether a digit
stands before the first character. -/
def isGroupedBehind (isDigit : Char → Bool) (behind : Bool) : List Char → Bool
  | [] => true
  | c :: cs =>
    if c = '_' then behind && cs.head?.any isDigit && isGroupedBehind isDigit false cs
    else isGroupedBehind isDigit (isDigit c) cs

/-- Whether each underscore stands between two digits. -/
def isGrouped (isDigit : Char → Bool) (cs : List Char) : Bool := isGroupedBehind isDigit false cs

/-- The characters without underscores. -/
def ungrouped (cs : List Char) : List Char := cs.filter (· ≠ '_')

/-- The sign at the front, if there is one, and the characters behind it. -/
def splitSign : List Char → Option Bool × List Char
  | '+' :: cs => (some false, cs)
  | '-' :: cs => (some true, cs)
  | cs => (none, cs)

/-! ## Forms -/

/-- The fraction at the front of `cs`, underscores in it, and what follows it. -/
def splitFraction? : List Char → Option (List Char × List Char)
  | '.' :: cs =>
    let (ds, rest) := cs.span isRunChar
    if ds.any Char.isDigit then some (ds, rest) else none
  | cs => some ([], cs)

/-- The exponent that `cs` is; zero if it is empty. -/
def exponent? : List Char → Option Int
  | [] => some 0
  | c :: cs =>
    let (sign, ds) := splitSign cs
    if (c = 'e' ∨ c = 'E') ∧ ds.all isRunChar ∧ ds.any Char.isDigit then
      let e : Int := Numeral.digitsValue (ungrouped ds)
      some (if sign = some true then -e else e)
    else none

/-- The numeral that the characters behind the sign of a floating-point number are. -/
def numeral? (body : List Char) : Option Numeral := do
  let (ds, rest) := body.span isRunChar
  let digits := ds.countP Char.isDigit
  if digits = 0 ∨ digits ≠ 1 ∧ body.head? = some '0' then none
  let (fraction, rest) ← splitFraction? rest
  let e ← exponent? rest
  return ⟨Numeral.digitsValue (ungrouped ds), ungrouped fraction, some e⟩

/-- Whether the characters behind the sign of a decimal integer have its form: digits up to the end
or to the first underscore, no needless zero at the front, and no space. -/
def isWhole (body : List Char) : Bool :=
  let rest := body.dropWhile Char.isDigit
  !body.isEmpty && (rest.isEmpty || rest.head? = some '_' && !rest.contains ' ')
    && (body.head? ≠ some '0' || body.length = 1)

/-- The decimal number with the form of the word; the sign is split from the body. -/
def ofDecimal? (sign : Option Bool) (body : List Char) : Option Number :=
  let negative := sign = some true
  if body = ['i', 'n', 'f'] then some (.infinity negative)
  else if body = ['n', 'a', 'n'] then some .nan
  else if body.any fun c => c = '.' || c = 'e' || c = 'E' then
    if isGrouped Char.isDigit body then (numeral? body).map (.float negative) else none
  else if isWhole body && isGrouped (isDigitIn 16) body then
    some (.integer 10 ((if negative then ['-'] else []) ++ ungrouped body))
  else none

/-- The number with the form of the word. -/
def ofWord? (cs : List Char) : Option Number :=
  match splitSign cs with
  | (sign, '0' :: c :: ds) =>
    match base? c with
    | none => ofDecimal? sign ('0' :: c :: ds)
    | some base =>
      if sign.isNone && ds.all (fun c => isDigitIn base c || c = '_')
          && isGrouped (isDigitIn base) ds then
        some (.integer base (ungrouped ds))
      else none
  | (sign, body) => ofDecimal? sign body

/-! ## Values -/

/-- Whether the integer fits a word of 128 bits, signed or unsigned. -/
def fits (i : Int) : Bool := -Int.pow 2 127 ≤ i && i < Int.pow 2 128

/-- The value of an integer, if its characters are digits of its base and it is in range. -/
def toInt? : Number → Option Int
  | .integer base cs =>
    let (sign, ds) := splitSign cs
    let i : Int := digitsIn base ds
    let i := if sign = some true then -i else i
    if !ds.isEmpty && ds.all (isDigitIn base) && fits i then some i else none
  | _ => none

/-- The value of a floating-point number, if it is in range. -/
def toBinary64? : Number → Option Binary64
  | .integer _ _ => none
  | .float negative n => n.toDecimal.toBinary64? negative
  | .infinity negative => some (.ofMagnitude negative Binary64.infinityMagnitude)
  | .nan => some (.ofMagnitude false (Binary64.infinityMagnitude + Nat.pow 2 51))

/-- Whether the number has a value. -/
def hasValue (n : Number) : Bool := n.toInt?.isSome || n.toBinary64?.isSome

end Number

end Triage.Toml
