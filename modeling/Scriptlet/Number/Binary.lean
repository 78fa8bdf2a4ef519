/-! Doubles taken apart into exact integers, and put together again. -/

set_option autoImplicit false

namespace Scriptlet.Number

/-- A double. A finite one is `± mantissa · 2 ^ exponent`. -/
inductive Binary where
  | undefined
  | infinite (negative : Bool)
  | finite (negative : Bool) (mantissa : Nat) (exponent : Int)
  deriving DecidableEq

def twoTo (exponent : Nat) : Nat := Nat.pow 2 exponent

def leastExponent : Int := -1074

def Binary.ofFloat (x : Float) : Binary :=
  let bits := x.toBits.toNat
  let negative := bits / twoTo 63 == 1
  let field := bits / twoTo 52 % twoTo 11
  let fraction := bits % twoTo 52
  if field = 0 then
    .finite negative fraction leastExponent
  else if field = 2047 then
    if fraction = 0 then .infinite negative else .undefined
  else
    .finite negative (fraction + twoTo 52) (leastExponent + (field - 1 : Nat))

/-- The bits of `mantissa · 2 ^ (place + leastExponent)`, for a mantissa below `2 ^ 53`. -/
def magnitudeBits : Nat → Nat → Nat
  | 0, mantissa => mantissa
  | place + 1, mantissa =>
    if mantissa < twoTo 52 then magnitudeBits place (2 * mantissa)
    else (place + 1) * twoTo 52 + mantissa

/-- The double `± mantissa · 2 ^ exponent`, for a mantissa below `2 ^ 53` and an exponent that is
not below the least one. -/
def ofParts (negative : Bool) (mantissa : Nat) (exponent : Int) : Float :=
  let sign := if negative then twoTo 63 else 0
  let magnitude := magnitudeBits (exponent - leastExponent).toNat mantissa
  Float.ofBits (UInt64.ofNat (sign + magnitude))

def undefined : Float := Float.ofBits 0x7FF8000000000000

def infinity : Float := Float.ofBits 0x7FF0000000000000

end Scriptlet.Number
