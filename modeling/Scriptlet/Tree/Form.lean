import Scriptlet.Number.Layout
import Scriptlet.Text.Printable
import Scriptlet.Tree.Basic

/-! Trees as nested lists in parentheses, the head of each list naming its node. -/

set_option autoImplicit false

namespace Scriptlet.Node

mutual

def form : Node → String
  | .number _ value => Number.text value
  | .string _ text => String.ofList (Printable.quote text.toList)
  | .boolean _ value => if value then "true" else "false"
  | .nil _ => "nil"
  | .reference _ name => name
  | .assign _ name value => "(= " ++ name ++ " " ++ form value ++ ")"
  | .declare _ name value => "(let " ++ name ++ " " ++ form value ++ ")"
  | .unary _ op operand => "(" ++ op.symbol ++ " " ++ form operand ++ ")"
  | .binary _ op left right => "(" ++ op.symbol ++ " " ++ form left ++ " " ++ form right ++ ")"
  | .logical _ op left right => "(" ++ op.symbol ++ " " ++ form left ++ " " ++ form right ++ ")"
  | .call _ callee arguments => "(call " ++ form callee ++ formEach arguments ++ ")"
  | .function _ name parameters body =>
    "(fn " ++ name ++ " (" ++ " ".intercalate parameters ++ ")" ++ formEach body ++ ")"
  | .block _ statements => "(block" ++ formEach statements ++ ")"
  | .branch _ condition thenBranch elseBranch =>
    "(if " ++ form condition ++ " " ++ form thenBranch ++ formIfAny elseBranch ++ ")"
  | .loop _ condition body increment =>
    "(while " ++ form condition ++ " " ++ form body ++ formIfAny increment ++ ")"
  | .return _ value => "(return" ++ formIfAny value ++ ")"
  | .break _ => "(break)"
  | .continue _ => "(continue)"
  | .program _ statements => "(program" ++ formEach statements ++ ")"

def formEach : List Node → String
  | [] => ""
  | node :: rest => " " ++ form node ++ formEach rest

def formIfAny : Option Node → String
  | none => ""
  | some node => " " ++ form node

end

end Scriptlet.Node
