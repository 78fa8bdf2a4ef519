/-! Sets of characters, written as ranges of code points. -/

set_option autoImplicit false

namespace Scriptlet

/-- Ranges with both ends included, in increasing order. -/
def CodeRanges := List (Nat × Nat)

namespace CodeRanges

/-- Look a code point up, no further than the first range above it. -/
def within (code : Nat) : List (Nat × Nat) → Bool
  | [] => false
  | (first, last) :: rest => first ≤ code && (code ≤ last || within code rest)

def holds (ranges : CodeRanges) (c : Char) : Bool := within c.toNat ranges

end CodeRanges

end Scriptlet
