import Scriptlet.Number.Binary

/-! The shortest decimal that reads back as a given double.

A decimal reads back as `m · 2 ^ e` when it lies between the midpoints to the neighbouring doubles;
the midpoints themselves do when `m` is even. Of the decimals with the fewest digits the nearest one
is taken, of two equally near ones the larger.
-/

set_option autoImplicit false

namespace Scriptlet.Number

def tenTo (exponent : Nat) : Nat := Nat.pow 10 exponent

/-- The number `digits · 10 ^ place`. -/
structure Decimal where
  digits : Nat
  place : Int
  deriving DecidableEq

/-- The fractions `low / unit`, `value / unit` and `high / unit`, with whether the outer two belong
to the interval. -/
structure Interval where
  low : Nat
  value : Nat
  high : Nat
  unit : Nat
  closed : Bool

namespace Interval

/-- The decimals that read back as `mantissa · 2 ^ exponent`. -/
def around (mantissa : Nat) (exponent : Int) : Interval :=
  let atPowerOfTwo := mantissa == twoTo 52 && leastExponent < exponent
  let scale := twoTo (exponent - 2).toNat
  { low := (4 * mantissa - if atPowerOfTwo then 1 else 2) * scale
    value := 4 * mantissa * scale
    high := (4 * mantissa + 2) * scale
    unit := twoTo (2 - exponent).toNat
    closed := mantissa % 2 == 0 }

/-- The same interval counted in units of `10 ^ place`. -/
def inUnitsOf (interval : Interval) (place : Int) : Interval :=
  let scale := tenTo (-place).toNat
  { interval with
    low := interval.low * scale
    value := interval.value * scale
    high := interval.high * scale
    unit := interval.unit * tenTo place.toNat }

def holds (interval : Interval) (n : Nat) : Bool :=
  let x := n * interval.unit
  if interval.closed then interval.low ≤ x && x ≤ interval.high
  else interval.low < x && x < interval.high

/-- The integer of the interval that is nearest to its value, if there is one. -/
def nearest? (interval : Interval) : Option Nat :=
  let below := interval.value / interval.unit
  let rest := interval.value % interval.unit
  match interval.holds below, interval.holds (below + 1) with
  | false, false => none
  | true, false => some below
  | false, true => some (below + 1)
  | true, true => some (if 2 * rest < interval.unit then below else below + 1)

end Interval

/-- The number of zeros between the point and the first digit of `value / unit`, below one. -/
def leadingZeros : Nat → Nat → Nat → Nat
  | 0, _, _ => 0
  | fuel + 1, value, unit =>
    if unit ≤ 10 * value then 0 else leadingZeros fuel (10 * value) unit + 1

/-- The number of digits before the point of `value / unit`; zeros after it count as negative. -/
def leadingPlace (value unit : Nat) : Int :=
  if unit ≤ value then ((Nat.toDigits 10 (value / unit)).length : Int)
  else -(leadingZeros 400 value unit : Int)

/-- Try decimals of `count` digits, then of one more, and so on; `left` bounds the tries. -/
def search (interval : Interval) (lead : Int) : Nat → Nat → Decimal
  | 0, count =>
    let place := lead - count
    let scaled := interval.inUnitsOf place
    ⟨scaled.value / scaled.unit, place⟩
  | left + 1, count =>
    let place := lead - count
    match (interval.inUnitsOf place).nearest? with
    | some digits => ⟨digits, place⟩
    | none => search interval lead left (count + 1)

/-- The shortest decimal that reads back as `mantissa · 2 ^ exponent`. -/
def shortest (mantissa : Nat) (exponent : Int) : Decimal :=
  let interval := Interval.around mantissa exponent
  search interval (leadingPlace interval.value interval.unit) 17 1

end Scriptlet.Number
