import PacketProtocol.Decimal
import PacketProtocol.Binary.Binary64
/-!
# Decimal text of doubles

`shortest` is the decimal with the fewest digits that reads back as the same double: the coarsest
grid of powers of ten with a point among the reals that round to it. Of two such points the one
nearer to the double is taken, and of two equally near ones the larger. `fixed` rounds the exact
value to a number of places, a tie going to the even digit.
-/

namespace PacketProtocol

open scoped Numerals

namespace Shortest

/-- Reals around a positive double, in units small enough to make all bounds whole: those between
`low` and `high` round to `value`, the bounds themselves iff `closed`. -/
structure Interval where
  low : Nat
  value : Nat
  high : Nat
  closed : Bool
deriving Repr

namespace Interval

def contains (i : Interval) (n : Nat) : Bool :=
  if i.closed then i.low ≤ n && n ≤ i.high else i.low < n && n < i.high

/-- The multiple of `step` to print, if one lies in the interval, counted in steps. -/
def onGrid (i : Interval) (step : Nat) : Option Nat :=
  let below := i.value / step
  match i.contains (below * step), i.contains ((below + 1) * step) with
  | true, true =>
    some (if 2 * (i.value % step) < step then below else below + 1)
  | true, false => some below
  | false, true => some (below + 1)
  | false, false => none

/-- The interval in units `factor` times smaller. -/
def refine (i : Interval) (factor : Nat) : Interval :=
  { i with low := i.low * factor, value := i.value * factor, high := i.high * factor }

end Interval

/-- The interval of a finite magnitude in units of a quarter of its last bit, and that unit. Below a
power of two the spacing is half of what it is above, except where the exponent field is least. -/
def interval (f : Format) (magnitude : Nat) : Interval × Int :=
  let x := f.scaled magnitude
  let tight := magnitude % 2 ^ f.fractionBits = 0 ∧ 1 < magnitude / 2 ^ f.fractionBits
  let low := 4 * x.significand - if tight then 1 else 2
  (⟨low, 4 * x.significand, 4 * x.significand + 2, x.significand % 2 = 0⟩, x.scale - 2)

/-- Tries the grids `10 ^ exponent`, `10 ^ (exponent - 1)`, … in turn, `fuel` of them. -/
def search (i : Interval) (unit : Int) (exponent : Int) : Nat → Decimal
  | 0 => ⟨0, 0⟩
  | fuel + 1 =>
    let scaledUp := i.refine (2 ^ unit.toNat * 10 ^ (-exponent).toNat)
    match scaledUp.onGrid (2 ^ (-unit).toNat * 10 ^ exponent.toNat) with
    | some count => ⟨count * 10 ^ exponent.toNat, (-exponent).toNat⟩
    | none => search i unit (exponent - 1) fuel

end Shortest

namespace Binary64

/-- The decimal with the fewest digits that reads back as the absolute value of a finite number. A
grid of `10 ^ -1076` holds the number itself, so the search ends. -/
def shortest (x : Binary64) : Decimal :=
  if x.magnitude = 0 then ⟨0, 0⟩
  else
    let (i, unit) := Shortest.interval Format.binary64 x.magnitude
    let start := (toString (x.scaled.floorAt 0)).length
    Shortest.search i unit start (start + 1077)

/-- The absolute value of a finite number to `places` places. -/
def fixed (x : Binary64) (places : Nat) : Decimal :=
  ⟨roundEven (x.scaled.numerator * 10 ^ places) x.scaled.denominator, places⟩

/-- The double nearest to a decimal with the given sign. -/
def ofDecimal (negative : Bool) (d : Decimal) : Binary64 := ofRatio negative d.unscaled (10 ^ d.places)

/-- A number as text: fewest digits, never an exponent. -/
def text (x : Binary64) : String :=
  if x.isNaN then "NaN"
  else
    let digits := if x.isFinite then x.shortest.text else "inf"
    if x.negative then "-" ++ digits else digits

end Binary64

end PacketProtocol
