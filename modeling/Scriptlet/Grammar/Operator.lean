import Scriptlet.Token.Basic
import Scriptlet.Tree.Basic

/-! Operators between two operands, and how tightly they bind. -/

set_option autoImplicit false

namespace Scriptlet

inductive Operator where
  | binary (op : BinaryOp)
  | logical (op : LogicalOp)
  deriving DecidableEq

namespace Operator

/-- The operator that a token stands for between operands, after its precedence. -/
def ofKind? : Kind → Option (Nat × Operator)
  | .mark .orOr => some (1, logical .or)
  | .mark .andAnd => some (2, logical .and)
  | .mark .equalEqual => some (3, binary .equal)
  | .mark .bangEqual => some (3, binary .notEqual)
  | .mark .less => some (4, binary .less)
  | .mark .lessEqual => some (4, binary .lessEqual)
  | .mark .greater => some (4, binary .greater)
  | .mark .greaterEqual => some (4, binary .greaterEqual)
  | .mark .plus => some (5, binary .add)
  | .mark .minus => some (5, binary .subtract)
  | .mark .star => some (6, binary .multiply)
  | .mark .slash => some (6, binary .divide)
  | .mark .percent => some (6, binary .modulo)
  | _ => none

def loosest : Nat := 1

theorem precedence_bounds {kind : Kind} {precedence : Nat} {operator : Operator}
    (known : ofKind? kind = some (precedence, operator)) :
    loosest ≤ precedence ∧ precedence ≤ 6 := by
  unfold ofKind? at known
  split at known <;> cases known <;> decide

def join (operator : Operator) (left right : Node) : Node :=
  let span := left.span.merge right.span
  match operator with
  | binary op => .binary span op left right
  | logical op => .logical span op left right

end Operator

def UnaryOp.ofKind? : Kind → Option UnaryOp
  | .mark .bang => some .not
  | .mark .minus => some .negate
  | _ => none

end Scriptlet
