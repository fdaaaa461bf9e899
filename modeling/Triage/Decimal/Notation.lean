import Triage.Decimal.Shortest

/-!
# Writing a number

Numerals, and two ways to write a double-precision number as one, both with the fewest digits:
the plain one, always positional, and the one for data, which changes to an exponent for large and
small numbers and marks an integer by `.0`.
-/

namespace Triage

/-- A numeral: the digits before the point as a number, those after it as they stand, and the
power of ten behind them. -/
structure Numeral where
  whole : Nat
  fraction : List Char
  exponent : Option Int
deriving DecidableEq, Repr

namespace Numeral

/-- The characters of an exponent, the sign always written. -/
def exponentChars : Option Int → List Char
  | none => []
  | some e => 'e' :: (if 0 ≤ e then '+' else '-') :: Decimal.digitsOf e.natAbs

/-- The characters of the numeral. -/
def chars (n : Numeral) : List Char :=
  Decimal.digitsOf n.whole ++ (if n.fraction.isEmpty then [] else '.' :: n.fraction)
    ++ exponentChars n.exponent

/-- The text of the numeral. -/
def text (n : Numeral) : String := String.ofList n.chars

/-- The number that a run of digits denotes. -/
def digitsValue (ds : List Char) : Nat := ds.foldl (fun v c => v * 10 + (c.toNat - 48)) 0

/-- The number that the numeral denotes. -/
def toDecimal (n : Numeral) : Decimal :=
  ⟨n.whole * Nat.pow 10 n.fraction.length + digitsValue n.fraction,
    n.exponent.getD 0 - n.fraction.length⟩

end Numeral

namespace Decimal

/-- What a way of writing decides beyond the digits: the positions of the decimal point, counted
from the first digit, for which it stays positional (`none` for all), and whether integers end in
`.0`. -/
structure Style where
  positional : Option (Int × Int)
  pointZero : Bool

/-- Numbers in messages: positional always, integers bare. -/
def Style.plain : Style := ⟨none, false⟩

/-- Numbers in data: positional from `0.00001` to below `1e+16`, integers with `.0`. -/
def Style.data : Style := ⟨some (-4, 16), true⟩

/-- The number with its digits at their places. -/
def toPositional (pointZero : Bool) (d : Decimal) : Numeral :=
  let ds := digitsOf d.digits
  let point := (ds.length : Int) + d.exponent
  if 0 ≤ d.exponent then
    ⟨d.digits * Nat.pow 10 d.exponent.toNat, if pointZero then ['0'] else [], none⟩
  else if 0 < point then
    ⟨d.digits / Nat.pow 10 (-d.exponent).toNat, ds.drop point.toNat, none⟩
  else ⟨0, List.replicate (-point).toNat '0' ++ ds, none⟩

/-- The number with its first digit before the point and the power of ten behind. -/
def toScientific (d : Decimal) : Numeral :=
  let ds := digitsOf d.digits
  ⟨Numeral.digitsValue (ds.take 1), ds.drop 1, some ((ds.length : Int) + d.exponent - 1)⟩

/-- Whether the style writes `d` positionally. -/
def Style.isPositional (s : Style) (d : Decimal) : Bool :=
  match s.positional with
  | none => true
  | some (low, high) =>
    let point := (length d.digits : Int) + d.exponent
    d.digits = 0 || low ≤ point && point ≤ high

/-- The magnitude of a finite number in the given style. -/
def Style.numeral (s : Style) (x : Binary64) : Numeral :=
  let d := shortest x
  if s.isPositional d then toPositional s.pointZero d else toScientific d

/-- A number as messages show it. -/
def plainText (x : Binary64) : String :=
  if x.isNaN then "NaN"
  else
    (if x.negative then "-" else "")
      ++ (if x.isFinite then (Style.plain.numeral x).text else "inf")

end Decimal

end Triage
