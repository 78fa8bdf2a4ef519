import Scriptlet.Text.Span

/-! Programs as trees. Every node carries the span of the text it was read from. -/

set_option autoImplicit false

namespace Scriptlet

inductive UnaryOp where
  | negate | not
  deriving DecidableEq

inductive BinaryOp where
  | add | subtract | multiply | divide | modulo
  | equal | notEqual | less | lessEqual | greater | greaterEqual
  deriving DecidableEq

inductive LogicalOp where
  | and | or
  deriving DecidableEq

def UnaryOp.symbol : UnaryOp → String
  | negate => "-"
  | not => "!"

def BinaryOp.symbol : BinaryOp → String
  | add => "+"
  | subtract => "-"
  | multiply => "*"
  | divide => "/"
  | modulo => "%"
  | equal => "=="
  | notEqual => "!="
  | less => "<"
  | lessEqual => "<="
  | greater => ">"
  | greaterEqual => ">="

def LogicalOp.symbol : LogicalOp → String
  | and => "&&"
  | or => "||"

/-- Expressions, statements and whole programs.

The `increment` of a loop runs after every round that ends normally or by a `continue`.
-/
inductive Node where
  | number (span : Span) (value : Float)
  | string (span : Span) (text : String)
  | boolean (span : Span) (value : Bool)
  | nil (span : Span)
  | reference (span : Span) (name : String)
  | assign (span : Span) (name : String) (value : Node)
  | declare (span : Span) (name : String) (value : Node)
  | unary (span : Span) (op : UnaryOp) (operand : Node)
  | binary (span : Span) (op : BinaryOp) (left right : Node)
  | logical (span : Span) (op : LogicalOp) (left right : Node)
  | call (span : Span) (callee : Node) (arguments : List Node)
  | function (span : Span) (name : String) (parameters : List String) (body : List Node)
  | block (span : Span) (statements : List Node)
  | branch (span : Span) (condition thenBranch : Node) (elseBranch : Option Node)
  | loop (span : Span) (condition body : Node) (increment : Option Node)
  | return (span : Span) (value : Option Node)
  | break (span : Span)
  | continue (span : Span)
  | program (span : Span) (statements : List Node)

namespace Node

def span : Node → Span
  | .number span _ => span
  | .string span _ => span
  | .boolean span _ => span
  | .nil span => span
  | .reference span _ => span
  | .assign span _ _ => span
  | .declare span _ _ => span
  | .unary span _ _ => span
  | .binary span _ _ _ => span
  | .logical span _ _ _ => span
  | .call span _ _ => span
  | .function span _ _ _ => span
  | .block span _ => span
  | .branch span _ _ _ => span
  | .loop span _ _ _ => span
  | .return span _ => span
  | .break span => span
  | .continue span => span
  | .program span _ => span

def withSpan (span : Span) : Node → Node
  | .number _ value => .number span value
  | .string _ text => .string span text
  | .boolean _ value => .boolean span value
  | .nil _ => .nil span
  | .reference _ name => .reference span name
  | .assign _ name value => .assign span name value
  | .declare _ name value => .declare span name value
  | .unary _ op operand => .unary span op operand
  | .binary _ op left right => .binary span op left right
  | .logical _ op left right => .logical span op left right
  | .call _ callee arguments => .call span callee arguments
  | .function _ name parameters body => .function span name parameters body
  | .block _ statements => .block span statements
  | .branch _ condition thenBranch elseBranch => .branch span condition thenBranch elseBranch
  | .loop _ condition body increment => .loop span condition body increment
  | .return _ value => .return span value
  | .break _ => .break span
  | .continue _ => .continue span
  | .program _ statements => .program span statements

/-- Whether a node has a value when it stands as a statement. -/
def isExpression : Node → Bool
  | .number .. => true
  | .string .. => true
  | .boolean .. => true
  | .nil .. => true
  | .reference .. => true
  | .assign .. => true
  | .unary .. => true
  | .binary .. => true
  | .logical .. => true
  | .call .. => true
  | _ => false

def children : Node → List Node
  | .assign _ _ value => [value]
  | .declare _ _ value => [value]
  | .unary _ _ operand => [operand]
  | .binary _ _ left right => [left, right]
  | .logical _ _ left right => [left, right]
  | .call _ callee arguments => callee :: arguments
  | .function _ _ _ body => body
  | .block _ statements => statements
  | .branch _ condition thenBranch elseBranch => condition :: thenBranch :: elseBranch.toList
  | .loop _ condition body increment => condition :: body :: increment.toList
  | .return _ value => value.toList
  | .program _ statements => statements
  | _ => []

end Node

end Scriptlet
