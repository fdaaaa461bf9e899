import Triage.Binary64
import Triage.Decimal.Basic

/-!
# The shortest decimal number

For a finite double-precision number, the decimal number with the fewest digits among those that
round to it, and of these the nearest.
-/

namespace Triage.Decimal

/-- The real numbers that round to a positive double-precision number, in quarters of its last
place: from `low` to `high` around `mid`, the ends included when `closed`, each a multiple of
`2 ^ scale`. -/
structure Interval where
  low : Nat
  mid : Nat
  high : Nat
  scale : Int
  closed : Bool

/-- The interval of a positive finite number.  Below a power of two the numbers stand twice as
close, so the lower end is only half as far. -/
def Interval.of (x : Binary64) : Interval :=
  let m := x.significand
  let narrow := x.fraction = 0 ∧ 1 < x.exponentField
  { low := if narrow then 4 * m - 1 else 4 * m - 2
    mid := 4 * m
    high := 4 * m + 2
    scale := x.exponent - 2
    closed := m % 2 = 0 }

namespace Interval

/-- The factor that brings multiples of `2 ^ scale` to the common unit of the grid `10 ^ g`. -/
def binaryFactor (i : Interval) (g : Int) : Nat :=
  Nat.pow 2 i.scale.toNat * Nat.pow 10 (-g).toNat

/-- The factor that brings multiples of `10 ^ g` to the common unit. -/
def decimalFactor (i : Interval) (g : Int) : Nat :=
  Nat.pow 10 g.toNat * Nat.pow 2 (-i.scale).toNat

/-- Whether `c · 10 ^ g` rounds to the number of the interval. -/
def holds (i : Interval) (g : Int) (c : Nat) : Bool :=
  let lo := i.low * i.binaryFactor g
  let hi := i.high * i.binaryFactor g
  let v := c * i.decimalFactor g
  if i.closed then lo ≤ v && v ≤ hi else lo < v && v < hi

/-- The larger multiple of `10 ^ g` not above the number. -/
def floor (i : Interval) (g : Int) : Nat := i.mid * i.binaryFactor g / i.decimalFactor g

/-- Whether the multiple `c` of `10 ^ g` is nearer to the number than `c + 1`; a tie goes to the
even one. -/
def prefersFloor (i : Interval) (g : Int) (c : Nat) : Bool :=
  let below := i.mid * i.binaryFactor g - c * i.decimalFactor g
  let above := (c + 1) * i.decimalFactor g - i.mid * i.binaryFactor g
  below < above || below = above && c % 2 = 0

/-- The multiple of `10 ^ g` next to the number that rounds to it, if there is one. -/
def pick? (i : Interval) (g : Int) : Option Decimal :=
  let c := i.floor g
  match i.holds g c, i.holds g (c + 1) with
  | true, true => some ⟨if i.prefersFloor g c then c else c + 1, g⟩
  | true, false => some ⟨c, g⟩
  | false, true => some ⟨c + 1, g⟩
  | false, false => none

/-- The first hit on the grids `10 ^ g`, `10 ^ (g - 1)`, …. -/
def search (i : Interval) : Nat → Int → Decimal
  | 0, g => ⟨i.floor g, g⟩
  | fuel + 1, g => (i.pick? g).getD (search i fuel (g - 1))

/-- The exponent of the leading decimal digit. -/
def leading (i : Interval) : Int := (length (i.floor (-400)) : Int) - 401

end Interval

/-- The shortest decimal number that rounds to the magnitude of the finite number `x`. -/
def shortest (x : Binary64) : Decimal :=
  if x.isZero then ⟨0, 0⟩
  else
    let i := Interval.of x
    stripZeros 400 (i.search 17 i.leading)

end Triage.Decimal
