/-!
# Decimal numbers

Non-negative decimal numbers, a count of units of a power of ten.
-/

namespace Triage

/-- The number `digits · 10 ^ exponent`. -/
structure Decimal where
  digits : Nat
  exponent : Int
deriving DecidableEq, Repr

namespace Decimal

/-- The decimal digits of `n`, the most significant first; one digit for zero. -/
def digitsOf (n : Nat) : List Char := Nat.toDigits 10 n

/-- The number of decimal digits of `n`. -/
def length (n : Nat) : Nat := (digitsOf n).length

/-- Moves trailing zeros of `digits` into the exponent, at most `fuel` of them. -/
def stripZeros : Nat → Decimal → Decimal
  | 0, d => d
  | fuel + 1, d =>
    if d.digits ≠ 0 ∧ d.digits % 10 = 0 then stripZeros fuel ⟨d.digits / 10, d.exponent + 1⟩ else d

/-- The numerator of the number as a fraction over `denominator`. -/
def numerator (d : Decimal) : Nat := d.digits * Nat.pow 10 d.exponent.toNat

/-- A power of ten over which the number is a fraction. -/
def denominator (d : Decimal) : Nat := Nat.pow 10 (-d.exponent).toNat

end Decimal

end Triage
