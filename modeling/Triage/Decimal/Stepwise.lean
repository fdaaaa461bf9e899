import Triage.Decimal.Notation
import Triage.Decimal.Rounding

/-!
# Reading a numeral in steps

Data files are read with words alone: the leading digits of a numeral are gathered in one word of
64 bits, and the number is scaled by powers of ten, with a rounding at every step.  The result may
lie some places off the double-precision number that is nearest to the numeral.
-/

namespace Triage

namespace Binary64

/-- The magnitude bits of the number nearest to `n / d · 2 ^ e`. -/
def nearestScaled (n d : Nat) (e : Int) : Nat :=
  if n = 0 then 0 else Decimal.nearestMagnitude (n * Nat.pow 2 e.toNat) (d * Nat.pow 2 (-e).toNat)

/-- The number without a sign that is nearest to a word. -/
def ofWord (n : Nat) : Binary64 := .ofMagnitude false (nearestScaled n 1 0)

/-- The number nearest to a power of ten, up to `10 ^ 308`. -/
def powerOfTen (k : Nat) : Binary64 := ofWord (Nat.pow 10 k)

/-- The rounded product of two magnitudes, if it is finite. -/
def times? (x y : Binary64) : Option Binary64 :=
  let m := nearestScaled (x.significand * y.significand) 1 (x.exponent + y.exponent)
  if m < infinityMagnitude then some (.ofMagnitude false m) else none

/-- The rounded quotient of two magnitudes, the second at least one. -/
def quotient (x y : Binary64) : Binary64 :=
  .ofMagnitude false (nearestScaled x.significand y.significand (x.exponent - y.exponent))

/-- The largest power of ten that is scaled by in one step. -/
def maxTens : Nat := 308

/-- The magnitude scaled by `10 ^ e`, if it is finite.  Large numbers are scaled in one step and
small ones in as many as it takes, unless they vanish before. -/
def scale? (x : Binary64) (e : Int) : Option Binary64 :=
  if e.natAbs ≤ maxTens then
    if 0 ≤ e then x.times? (powerOfTen e.toNat) else some (x.quotient (powerOfTen e.natAbs))
  else if x.isZero then some x
  else if 0 ≤ e then none
  else scale? (x.quotient (powerOfTen maxTens)) (e + maxTens)
termination_by (-e).toNat
decreasing_by
  have : maxTens = 308 := rfl
  omega

end Binary64

namespace Numeral

/-- The number with another digit behind it, if that fits a word of 64 bits. -/
@[irreducible]
def append? (n : Nat) (c : Char) : Option Nat :=
  let n := n * 10 + (c.toNat - 48)
  if n < Nat.pow 2 64 then some n else none

/-- The number with the digits before the point behind it.  From the first digit that does not fit
on, all are counted as zeros. -/
def gatherWhole (n : Nat) : List Char → Decimal
  | [] => ⟨n, 0⟩
  | c :: cs =>
    match append? n c with
    | some n => gatherWhole n cs
    | none => ⟨n, cs.length + 1⟩

/-- The number with the digits after the point behind it.  From the first digit that does not fit
on, all are left off. -/
def gatherFraction (d : Decimal) : List Char → Decimal
  | [] => d
  | c :: cs =>
    match append? d.digits c with
    | some n => gatherFraction ⟨n, d.exponent - 1⟩ cs
    | none => d

/-- The leading digits of the numeral, as many as one word holds. -/
def leading (n : Numeral) : Decimal :=
  gatherFraction (gatherWhole 0 (Decimal.digitsOf n.whole)) n.fraction

/-- The double-precision number with the given sign that the numeral is read as, if it is
finite. -/
def toBinary64? (negative : Bool) (n : Numeral) : Option Binary64 :=
  ((Binary64.ofWord n.leading.digits).scale? (n.leading.exponent + n.exponent.getD 0)).map
    fun x => .ofMagnitude negative x.bits.toNat

end Numeral

end Triage
