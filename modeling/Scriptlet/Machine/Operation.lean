import Scriptlet.Machine.Error
import Scriptlet.Number.Arithmetic

/-! What operators do with values. -/

set_option autoImplicit false

namespace Scriptlet

def UnaryOp.apply (op : UnaryOp) (operand : Value) (span : Span) : Except RuntimeError Value :=
  match op, operand with
  | .not, value => .ok (.boolean (!value.isTruthy))
  | .negate, .number value => .ok (.number (-value))
  | .negate, other => .error (.typeMismatch (.operand .negate other.type) span)

namespace BinaryOp

def onNumbers (op : BinaryOp) (left right : Value) (span : Span)
    (apply : Float → Float → Except RuntimeError Value) : Except RuntimeError Value :=
  match left, right with
  | .number a, .number b => apply a b
  | _, _ => .error (.typeMismatch (.operands op left.type right.type) span)

/-- Refuse to divide by zero, of either sign. -/
def byNonzero (apply : Float → Float → Float) (span : Span) (a b : Float) :
    Except RuntimeError Value :=
  if b == 0.0 then .error (.divisionByZero span) else .ok (.number (apply a b))

def apply (op : BinaryOp) (left right : Value) (span : Span) : Except RuntimeError Value :=
  match op with
  | .equal => .ok (.boolean (left.same right))
  | .notEqual => .ok (.boolean (!left.same right))
  | .add =>
    match left, right with
    | .string a, .string b => .ok (.string (a ++ b))
    | _, _ => onNumbers .add left right span fun a b => .ok (.number (a + b))
  | .subtract => onNumbers .subtract left right span fun a b => .ok (.number (a - b))
  | .multiply => onNumbers .multiply left right span fun a b => .ok (.number (a * b))
  | .divide => onNumbers .divide left right span (byNonzero (· / ·) span)
  | .modulo => onNumbers .modulo left right span (byNonzero Number.remainder span)
  | .less => onNumbers .less left right span fun a b => .ok (.boolean (a < b))
  | .lessEqual => onNumbers .lessEqual left right span fun a b => .ok (.boolean (a ≤ b))
  | .greater => onNumbers .greater left right span fun a b => .ok (.boolean (a > b))
  | .greaterEqual => onNumbers .greaterEqual left right span fun a b => .ok (.boolean (a ≥ b))

end BinaryOp

/-- Whether the left operand alone decides: the right one is then not evaluated. -/
def LogicalOp.decidedBy (op : LogicalOp) (left : Value) : Bool :=
  match op with
  | .and => !left.isTruthy
  | .or => left.isTruthy

end Scriptlet
