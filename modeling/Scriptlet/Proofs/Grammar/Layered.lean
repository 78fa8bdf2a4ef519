import Scriptlet.Grammar.Expression

/-! Expressions, read by one function for each level of precedence.

From loosest to tightest: assignments, `||`, `&&`, equality, comparison, sums, products, prefix
operators, calls, and what stands alone. A level of operators is a chain of operands of the next
level, grouped to the left.
-/

set_option autoImplicit false

namespace Scriptlet.Layered

def disjunctionOperator? : Kind → Option Operator
  | .mark .orOr => some (.logical .or)
  | _ => none

def conjunctionOperator? : Kind → Option Operator
  | .mark .andAnd => some (.logical .and)
  | _ => none

def equalityOperator? : Kind → Option Operator
  | .mark .equalEqual => some (.binary .equal)
  | .mark .bangEqual => some (.binary .notEqual)
  | _ => none

def comparisonOperator? : Kind → Option Operator
  | .mark .less => some (.binary .less)
  | .mark .lessEqual => some (.binary .lessEqual)
  | .mark .greater => some (.binary .greater)
  | .mark .greaterEqual => some (.binary .greaterEqual)
  | _ => none

def sumOperator? : Kind → Option Operator
  | .mark .plus => some (.binary .add)
  | .mark .minus => some (.binary .subtract)
  | _ => none

def productOperator? : Kind → Option Operator
  | .mark .star => some (.binary .multiply)
  | .mark .slash => some (.binary .divide)
  | .mark .percent => some (.binary .modulo)
  | _ => none

/-- As many operators of one level as follow, each with its operand, joined to what is on their
left. -/
def joins (operator? : Kind → Option Operator) (operand : Parse Node) : Nat → Node → Parse Node
  | 0, _ => Action.cutOff
  | steps + 1, left => do
    let next ← Parse.current
    match operator? next.kind with
    | none => pure left
    | some operator =>
      let _ ← Parse.advance
      let right ← operand
      joins operator? operand steps (operator.join left right)

def chain (operator? : Kind → Option Operator) (operand : Parse Node) (steps : Nat) :
    Parse Node := do
  let left ← operand
  joins operator? operand steps left

/-! The six levels of operators, over a reader of their tightest operands -/

def product (operand : Parse Node) (steps : Nat) : Parse Node :=
  chain productOperator? operand steps

def sum (operand : Parse Node) (steps : Nat) : Parse Node :=
  chain sumOperator? (product operand steps) steps

def comparison (operand : Parse Node) (steps : Nat) : Parse Node :=
  chain comparisonOperator? (sum operand steps) steps

def equality (operand : Parse Node) (steps : Nat) : Parse Node :=
  chain equalityOperator? (comparison operand steps) steps

def conjunction (operand : Parse Node) (steps : Nat) : Parse Node :=
  chain conjunctionOperator? (equality operand steps) steps

def disjunction (operand : Parse Node) (steps : Nat) : Parse Node :=
  chain disjunctionOperator? (conjunction operand steps) steps

def literal (node : Span → Node) : Parse Node := do
  let token ← Parse.advance
  pure (node token.span)

def prefixed (op : UnaryOp) (operand : Parse Node) : Parse Node := do
  let sign ← Parse.advance
  let inner ← operand
  pure (.unary (sign.span.merge inner.span) op inner)

mutual

/-- An assignment to a variable, which groups to the right, or a disjunction. -/
def expression : Nat → Parse Node
  | 0 => Action.cutOff
  | steps + 1 => do
    let target ← disjunction (signed steps) steps
    if ← Parse.sees (.mark .equal) then
      let _ ← Parse.advance
      let value ← expression steps
      match target with
      | .reference span name => pure (.assign (span.merge value.span) name value)
      | _ => Action.fail (.invalidTarget target.span)
    else
      pure target

def signed : Nat → Parse Node
  | 0 => Action.cutOff
  | steps + 1 => do
    let next ← Parse.current
    match next.kind with
    | .mark .bang => prefixed .not (signed steps)
    | .mark .minus => prefixed .negate (signed steps)
    | _ => called steps

def called : Nat → Parse Node
  | 0 => Action.cutOff
  | steps + 1 => do
    let callee ← primary steps
    callSuffixes steps callee

def callSuffixes : Nat → Node → Parse Node
  | 0, _ => Action.cutOff
  | steps + 1, callee => do
    if ← Parse.sees (.mark .leftParen) then
      let _ ← Parse.advance
      let found ← arguments steps
      let closing ← Parse.expect .rightParen .parenAfterArguments
      callSuffixes steps (.call (callee.span.merge closing.span) callee found)
    else
      pure callee

def arguments : Nat → Parse (List Node)
  | 0 => Action.cutOff
  | steps + 1 => do
    if ← Parse.sees (.mark .rightParen) then
      pure []
    else
      someArguments steps

def someArguments : Nat → Parse (List Node)
  | 0 => Action.cutOff
  | steps + 1 => do
    let first ← expression steps
    if ← Parse.sees (.mark .comma) then
      let _ ← Parse.advance
      let rest ← someArguments steps
      pure (first :: rest)
    else
      pure [first]

def primary : Nat → Parse Node
  | 0 => Action.cutOff
  | steps + 1 => do
    let next ← Parse.current
    match next.kind with
    | .number value => literal (.number · value)
    | .string text => literal (.string · text)
    | .keyword .trueWord => literal (.boolean · true)
    | .keyword .falseWord => literal (.boolean · false)
    | .keyword .nilWord => literal .nil
    | .identifier name => literal (.reference · name)
    | .mark .leftParen =>
      let opening ← Parse.advance
      let inner ← expression steps
      let closing ← Parse.expect .rightParen .parenAfterExpression
      pure (inner.withSpan (opening.span.merge closing.span))
    | found => Action.fail (.expectedExpression found next.span)

end

end Scriptlet.Layered
