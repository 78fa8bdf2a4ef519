import Scriptlet.Editing.Brackets

/-! Whether an input is ready to be run. -/

set_option autoImplicit false

namespace Scriptlet

inductive Verdict where
  | valid
  | incomplete
  | unmatched (offset : Nat)
  deriving DecidableEq

/-- An input with an unmatched bracket cannot become right; one with an open bracket or string still
can. -/
def validate (input : List Char) : Verdict :=
  let brackets := Brackets.scan input
  match brackets.unmatched with
  | offset :: _ => .unmatched offset
  | [] => if brackets.inString || !brackets.opened.isEmpty then .incomplete else .valid

end Scriptlet
