import Triage.Binary64
import Triage.Decimal.Basic

/-!
# Reading a decimal number

The double-precision number nearest to a decimal number; of two that are equally near, the one
with an even significand.
-/

namespace Triage.Decimal

/-- The quotient of `n` by `d` rounded to the nearest integer, a half to the even neighbour. -/
def roundDiv (n d : Nat) : Nat :=
  let q := n / d
  let r := 2 * (n % d)
  if r < d ∨ r = d ∧ q % 2 = 0 then q else q + 1

/-- The exponent of the last place of the double-precision numbers around `n / d`: the largest
`e` with `2 ^ 52 ≤ n / d / 2 ^ e`, but never below that of the smallest numbers. -/
def lastPlace (n d : Nat) : Int :=
  let guess := (n.log2 : Int) - d.log2 - 52
  let low := d * Nat.pow 2 (52 + guess).toNat ≤ n * Nat.pow 2 (-(52 + guess)).toNat
  max (if low then guess else guess - 1) (-1074)

/-- The magnitude bits of the double-precision number nearest to `n / d`. -/
def nearestMagnitude (n d : Nat) : Nat :=
  let e := lastPlace n d
  (e + 1074).toNat * Nat.pow 2 52 +
    roundDiv (n * Nat.pow 2 (-e).toNat) (d * Nat.pow 2 e.toNat)

/-- The double-precision number nearest to `d`, with the given sign, if it is finite.  Exponents
far outside the range are settled without computing the power of ten. -/
def toBinary64? (negative : Bool) (d : Decimal) : Option Binary64 :=
  if d.digits = 0 then some (.ofMagnitude negative 0)
  else
    let size := (length d.digits : Int) + d.exponent
    if size > 310 then none
    else if size < -330 then some (.ofMagnitude negative 0)
    else
      let m := nearestMagnitude d.numerator d.denominator
      if m < Binary64.infinityMagnitude then some (.ofMagnitude negative m) else none

end Triage.Decimal
