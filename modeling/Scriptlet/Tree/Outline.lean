import Scriptlet.Number.Layout
import Scriptlet.Tree.Basic

/-! Trees as flat lists: each node before the nodes below it, with its depth. -/

set_option autoImplicit false

namespace Scriptlet.Node

mutual

/-- The nodes below a node, the nearest of them at `depth`. -/
def beneath (depth : Nat) : Node → List (Nat × Node)
  | .assign _ _ value => (depth, value) :: beneath (depth + 1) value
  | .declare _ _ value => (depth, value) :: beneath (depth + 1) value
  | .unary _ _ operand => (depth, operand) :: beneath (depth + 1) operand
  | .binary _ _ left right =>
    (depth, left) :: beneath (depth + 1) left ++ (depth, right) :: beneath (depth + 1) right
  | .logical _ _ left right =>
    (depth, left) :: beneath (depth + 1) left ++ (depth, right) :: beneath (depth + 1) right
  | .call _ callee arguments =>
    (depth, callee) :: beneath (depth + 1) callee ++ eachAndBeneath depth arguments
  | .function _ _ _ body => eachAndBeneath depth body
  | .block _ statements => eachAndBeneath depth statements
  | .branch _ condition thenBranch elseBranch =>
    (depth, condition) :: beneath (depth + 1) condition ++
      (depth, thenBranch) :: beneath (depth + 1) thenBranch ++ anyAndBeneath depth elseBranch
  | .loop _ condition body increment =>
    (depth, condition) :: beneath (depth + 1) condition ++
      (depth, body) :: beneath (depth + 1) body ++ anyAndBeneath depth increment
  | .return _ value => anyAndBeneath depth value
  | .program _ statements => eachAndBeneath depth statements
  | _ => []

def eachAndBeneath (depth : Nat) : List Node → List (Nat × Node)
  | [] => []
  | node :: rest => (depth, node) :: beneath (depth + 1) node ++ eachAndBeneath depth rest

def anyAndBeneath (depth : Nat) : Option Node → List (Nat × Node)
  | none => []
  | some node => (depth, node) :: beneath (depth + 1) node

end

/-- Every node of a tree with its depth; the tree itself comes first, at depth zero. -/
def outline (node : Node) : List (Nat × Node) := (0, node) :: beneath 1 node

def label : Node → String
  | .number .. => "Number"
  | .string .. => "String"
  | .boolean .. => "Boolean"
  | .nil .. => "Nil"
  | .reference .. => "Identifier"
  | .assign .. => "Assign"
  | .declare .. => "Let"
  | .unary .. => "Unary"
  | .binary .. => "Binary"
  | .logical .. => "Logical"
  | .call .. => "Call"
  | .function .. => "FunctionDef"
  | .block .. => "Block"
  | .branch .. => "If"
  | .loop .. => "While"
  | .return .. => "Return"
  | .break .. => "Break"
  | .continue .. => "Continue"
  | .program .. => "Program"

/-- What tells a node from others of its form, apart from the nodes below it. -/
def detail : Node → String
  | .number _ value => Number.text value
  | .string _ text => text
  | .boolean _ value => if value then "true" else "false"
  | .reference _ name => name
  | .assign _ name _ => name
  | .declare _ name _ => name
  | .unary _ op _ => op.symbol
  | .binary _ op _ _ => op.symbol
  | .logical _ op _ _ => op.symbol
  | .call _ _ arguments => toString arguments.length
  | .function _ name parameters _ => name ++ "(" ++ ",".intercalate parameters ++ ")"
  | _ => ""

end Scriptlet.Node
