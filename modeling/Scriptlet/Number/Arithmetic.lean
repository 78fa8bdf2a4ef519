import Scriptlet.Number.Binary

/-! Operations on doubles whose exact result is a double: rounding down and the remainder. -/

set_option autoImplicit false

namespace Scriptlet.Number

/-- The greatest integer that is not above a number; it keeps the sign of a zero. -/
def floor (x : Float) : Float :=
  match Binary.ofFloat x with
  | .undefined => x
  | .infinite _ => x
  | .finite negative mantissa exponent =>
    if 0 ≤ exponent then x
    else
      let unit := twoTo (-exponent).toNat
      let whole := mantissa / unit
      if negative then
        -(Float.ofNat (if mantissa % unit = 0 then whole else whole + 1))
      else
        Float.ofNat whole

/-- What is left of `x` after taking off as many whole `y` as fit; it has the sign of `x`. -/
def remainder (x y : Float) : Float :=
  match Binary.ofFloat x, Binary.ofFloat y with
  | .undefined, _ => undefined
  | _, .undefined => undefined
  | .infinite _, _ => undefined
  | _, .infinite _ => x
  | .finite negative mantissa exponent, .finite _ divisor place =>
    if divisor = 0 then undefined
    else
      let least := min exponent place
      let whole := mantissa * twoTo (exponent - least).toNat
      let part := divisor * twoTo (place - least).toNat
      ofParts negative (whole % part) least

end Scriptlet.Number
