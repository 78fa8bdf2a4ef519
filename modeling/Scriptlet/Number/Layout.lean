import Scriptlet.Number.Shortest

/-! Texts of numbers, built from their shortest decimals. -/

set_option autoImplicit false

namespace Scriptlet.Number

/-- The digits of a positional text around its point. -/
structure Positional where
  whole : List Char
  fraction : List Char

def stripZeros (fraction : List Char) : List Char :=
  (fraction.reverse.dropWhile (· == '0')).reverse

def Decimal.positional (decimal : Decimal) : Positional :=
  let digits := Nat.toDigits 10 decimal.digits
  if 0 ≤ decimal.place then
    ⟨digits ++ List.replicate decimal.place.toNat '0', []⟩
  else
    let places := (-decimal.place).toNat
    if places < digits.length then
      ⟨digits.take (digits.length - places), stripZeros (digits.drop (digits.length - places))⟩
    else
      ⟨['0'], stripZeros (List.replicate (places - digits.length) '0' ++ digits)⟩

/-- One digit before the point and the power of ten after the letter `e`. -/
def Decimal.scientific (decimal : Decimal) : List Char :=
  let digits := Nat.toDigits 10 decimal.digits
  let exponent := decimal.place + (digits.length - 1 : Nat)
  let fraction := stripZeros (digits.drop 1)
  digits.take 1 ++ (if fraction.isEmpty then [] else '.' :: fraction) ++ 'e' ::
    (if exponent < 0 then '-' :: Nat.toDigits 10 exponent.natAbs
     else Nat.toDigits 10 exponent.natAbs)

def signed (negative : Bool) (text : List Char) : String :=
  String.ofList (if negative then '-' :: text else text)

def decimalOf (mantissa : Nat) (exponent : Int) : Decimal :=
  if mantissa = 0 then ⟨0, 0⟩ else shortest mantissa exponent

/-- A number without an exponent, with a point only before a fraction. -/
def text (x : Float) : String :=
  match Binary.ofFloat x with
  | .undefined => "NaN"
  | .infinite negative => signed negative ['i', 'n', 'f']
  | .finite negative mantissa exponent =>
    let parts := (decimalOf mantissa exponent).positional
    signed negative
      (if parts.fraction.isEmpty then parts.whole else parts.whole ++ '.' :: parts.fraction)

/-- A number with a fraction or an exponent, so that it cannot pass for a count: from `1e16` on and
below `1e-4` with an exponent, in between with at least one decimal. -/
def markedText (x : Float) : String :=
  match Binary.ofFloat x with
  | .undefined => "NaN"
  | .infinite negative => signed negative ['i', 'n', 'f']
  | .finite negative mantissa exponent =>
    let decimal := decimalOf mantissa exponent
    if x.abs ≥ 1e16 || (mantissa != 0 && x.abs < 1e-4) then
      signed negative decimal.scientific
    else
      let parts := decimal.positional
      signed negative
        (parts.whole ++ '.' :: if parts.fraction.isEmpty then ['0'] else parts.fraction)

end Scriptlet.Number
