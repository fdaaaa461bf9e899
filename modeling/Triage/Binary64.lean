import Triage.Text.Hex

/-!
# Double-precision numbers

The 64-bit patterns of binary floating point and the numbers they stand for.  Equality of patterns
is equality of values of this type; `agrees` is the comparison of the numbers, under which a zero
equals its negative and no pattern that is not a number equals anything.
-/

namespace Triage

/-- A double-precision bit pattern: sign, 11 bits of exponent, 52 bits of fraction. -/
structure Binary64 where
  bits : UInt64
deriving DecidableEq, Repr

namespace Binary64

/-- Whether the sign bit is set. -/
def negative (x : Binary64) : Bool := Nat.pow 2 63 ≤ x.bits.toNat

/-- The exponent bits. -/
def exponentField (x : Binary64) : Nat := x.bits.toNat / Nat.pow 2 52 % Nat.pow 2 11

/-- The fraction bits. -/
def fraction (x : Binary64) : Nat := x.bits.toNat % Nat.pow 2 52

/-- Whether the pattern stands for a real number. -/
def isFinite (x : Binary64) : Bool := x.exponentField ≠ Nat.pow 2 11 - 1

/-- Whether the pattern stands for no number, not even an infinity. -/
def isNaN (x : Binary64) : Bool := !x.isFinite && x.fraction ≠ 0

/-- Whether the pattern is one of the two zeros. -/
def isZero (x : Binary64) : Bool := x.exponentField = 0 && x.fraction = 0

/-- The integer whose product with `2 ^ exponent` is the magnitude of a finite pattern. -/
def significand (x : Binary64) : Nat :=
  if x.exponentField = 0 then x.fraction else Nat.pow 2 52 + x.fraction

/-- The power of two that scales the significand. -/
def exponent (x : Binary64) : Int := (max x.exponentField 1 : Nat) - 1075

/-- Whether the number is below zero. -/
def belowZero (x : Binary64) : Bool := x.negative && !x.isNaN && !x.isZero

/-- Whether the two patterns stand for the same number. -/
def agrees (x y : Binary64) : Bool :=
  !x.isNaN && !y.isNaN && (x = y || x.isZero && y.isZero)

/-- The pattern with the given sign and magnitude bits. -/
def ofMagnitude (negative : Bool) (magnitude : Nat) : Binary64 :=
  ⟨UInt64.ofNat ((if negative then Nat.pow 2 63 else 0) + magnitude)⟩

/-- The bits in sixteen hexadecimal digits. -/
def hex (x : Binary64) : String := String.ofList (Text.hexDigits 16 x.bits.toNat)

/-- The pattern that sixteen hexadecimal digits denote. -/
def ofHex? (s : String) : Option Binary64 :=
  if s.length = 16 then (Text.hexNumber? s.toList).map fun n => ⟨UInt64.ofNat n⟩ else none

/-- The magnitude bits of the infinities. -/
def infinityMagnitude : Nat := (Nat.pow 2 11 - 1) * Nat.pow 2 52

end Binary64

end Triage
