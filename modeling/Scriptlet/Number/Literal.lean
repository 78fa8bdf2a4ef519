/-! Numbers read from decimal digits, rounded to the nearest double. -/

set_option autoImplicit false

namespace Scriptlet.Number

def digitValue (c : Char) : Nat := c.toNat - '0'.toNat

def digitsValue (digits : List Char) : Nat :=
  digits.foldl (fun value c => 10 * value + digitValue c) 0

/-- The double nearest to a decimal given by its digits before and after the point. -/
def ofDigits (whole fraction : List Char) : Float :=
  Float.ofScientific (digitsValue (whole ++ fraction)) true fraction.length

end Scriptlet.Number
