import Scriptlet.Machine.Host
import Scriptlet.Number.Arithmetic

/-! The functions that every program finds defined. -/

set_option autoImplicit false

namespace Scriptlet.Builtin

def first (arguments : List Value) : Value := arguments.headD .nil

/-- Write the arguments with spaces between them, then a line feed. -/
def print : Behaviour := fun arguments span => do
  let failure := "print failed: " ++ Host.sinkFull
  Host.write (" ".intercalate (arguments.map Value.display)) failure span
  Host.write "\n" failure span
  pure .nil

def str : Behaviour := fun arguments _ => pure (.string (first arguments).display)

/-- The number of characters of a string. -/
def len : Behaviour := fun arguments span =>
  match first arguments with
  | .string text => pure (.number (Float.ofNat text.length))
  | other => Action.fail (.typeMismatch (.argument "len" .string other.type) span)

def type : Behaviour := fun arguments _ => pure (.string (first arguments).type.name)

def ofNumber (name : String) (apply : Float → Span → Action RuntimeError Host Value) : Behaviour :=
  fun arguments span =>
    match first arguments with
    | .number value => apply value span
    | other => Action.fail (.typeMismatch (.argument name .number other.type) span)

def abs : Behaviour := ofNumber "abs" fun value _ => pure (.number value.abs)

def floor : Behaviour := ofNumber "floor" fun value _ => pure (.number (Number.floor value))

def sqrt : Behaviour := ofNumber "sqrt" fun value span =>
  if value < 0.0 then
    Action.fail (.native s!"cannot take the square root of {Number.text value}" span)
  else
    pure (.number value.sqrt)

def clock : Behaviour := fun _ span => do
  match ← Host.readClock with
  | some seconds => pure (.number seconds)
  | none => Action.fail (.native ("system clock error: " ++ Host.beforeEpoch) span)

/-- Names, arities and behaviours, in the order of their registration. -/
def all : List (String × Arity × Behaviour) := [
  ("print", .atLeast 0, print),
  ("str", .exactly 1, str),
  ("len", .exactly 1, len),
  ("type", .exactly 1, type),
  ("abs", .exactly 1, abs),
  ("floor", .exactly 1, floor),
  ("sqrt", .exactly 1, sqrt),
  ("clock", .exactly 0, clock)]

end Scriptlet.Builtin
