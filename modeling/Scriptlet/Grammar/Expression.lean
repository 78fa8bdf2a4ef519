import Scriptlet.Grammar.Operator
import Scriptlet.Grammar.Reader

/-! Expressions, read by the precedence of their operators.

Every function takes a number of steps and cuts off when they run out.
-/

set_option autoImplicit false

namespace Scriptlet.Parse

/-- What a token alone stands for as an operand. -/
def atom? (token : Token) : Option Node :=
  match token.kind with
  | .number value => some (.number token.span value)
  | .string text => some (.string token.span text)
  | .keyword .trueWord => some (.boolean token.span true)
  | .keyword .falseWord => some (.boolean token.span false)
  | .keyword .nilWord => some (.nil token.span)
  | .identifier name => some (.reference token.span name)
  | _ => none

/-- The node of an assignment; only a plain variable can be assigned to. -/
def assignment (target value : Node) : Parse Node :=
  match target with
  | .reference span name => pure (.assign (span.merge value.span) name value)
  | _ => Action.fail (.invalidTarget target.span)

mutual

/-- An assignment, which groups to the right, or operands joined by operators. -/
def expression : Nat → Parse Node
  | 0 => Action.cutOff
  | fuel + 1 => do
    let target ← operation fuel Operator.loosest
    if ← sees (.mark .equal) then
      let _ ← advance
      let value ← expression fuel
      assignment target value
    else
      pure target

/-- Operands joined by operators that bind at least as tightly as `least`. -/
def operation : Nat → Nat → Parse Node
  | 0, _ => Action.cutOff
  | fuel + 1, least => do
    let left ← unary fuel
    climb fuel least left

def climb : Nat → Nat → Node → Parse Node
  | 0, _, _ => Action.cutOff
  | fuel + 1, least, left => do
    let next ← current
    match Operator.ofKind? next.kind with
    | none => pure left
    | some (precedence, operator) =>
      if precedence < least then
        pure left
      else
        let _ ← advance
        let right ← operation fuel (precedence + 1)
        climb fuel least (operator.join left right)

def unary : Nat → Parse Node
  | 0 => Action.cutOff
  | fuel + 1 => do
    let next ← current
    match UnaryOp.ofKind? next.kind with
    | none => call fuel
    | some op =>
      let sign ← advance
      let operand ← unary fuel
      pure (.unary (sign.span.merge operand.span) op operand)

def call : Nat → Parse Node
  | 0 => Action.cutOff
  | fuel + 1 => do
    let callee ← primary fuel
    calls fuel callee

def calls : Nat → Node → Parse Node
  | 0, _ => Action.cutOff
  | fuel + 1, callee => do
    if ← sees (.mark .leftParen) then
      let _ ← advance
      let found ← arguments fuel
      let closing ← expect .rightParen .parenAfterArguments
      calls fuel (.call (callee.span.merge closing.span) callee found)
    else
      pure callee

/-- The arguments up to a closing parenthesis, which may follow at once. -/
def arguments : Nat → Parse (List Node)
  | 0 => Action.cutOff
  | fuel + 1 => do
    if ← sees (.mark .rightParen) then
      pure []
    else
      someArguments fuel

def someArguments : Nat → Parse (List Node)
  | 0 => Action.cutOff
  | fuel + 1 => do
    let first ← expression fuel
    if ← sees (.mark .comma) then
      let _ ← advance
      let rest ← someArguments fuel
      pure (first :: rest)
    else
      pure [first]

/-- A literal, a variable, or an expression in parentheses, which takes their span. -/
def primary : Nat → Parse Node
  | 0 => Action.cutOff
  | fuel + 1 => do
    let next ← current
    match atom? next with
    | some node =>
      let _ ← advance
      pure node
    | none =>
      if next.kind = .mark .leftParen then
        let opening ← advance
        let inner ← expression fuel
        let closing ← expect .rightParen .parenAfterExpression
        pure (inner.withSpan (opening.span.merge closing.span))
      else
        Action.fail (.expectedExpression next.kind next.span)

end

end Scriptlet.Parse
