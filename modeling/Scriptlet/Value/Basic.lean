import Scriptlet.Number.Layout
import Scriptlet.Text.Quoted
import Scriptlet.Tree.Basic

/-! Values, and the two ways to show one.

Functions hold the scope they were made in by its place in the store, and are told apart by an
identity that no two of them share.
-/

set_option autoImplicit false

namespace Scriptlet

inductive Arity where
  | exactly (count : Nat)
  | atLeast (count : Nat)
  deriving DecidableEq

namespace Arity

def accepts : Arity → Nat → Bool
  | exactly expected, count => count == expected
  | atLeast least, count => least ≤ count

def text : Arity → String
  | exactly count => toString count
  | atLeast count => s!"at least {count}"

end Arity

/-- The place of a scope in the store. -/
abbrev ScopeId := Nat

/-- A function of a program with the scope around its definition. -/
structure Closure where
  identity : Nat
  name : String
  parameters : List String
  body : List Node
  scope : ScopeId

/-- A function of the host; its identity selects what it does. -/
structure Native where
  identity : Nat
  name : String
  arity : Arity
  deriving DecidableEq

inductive Value where
  | number (value : Float)
  | string (text : String)
  | boolean (value : Bool)
  | nil
  | closure (closure : Closure)
  | native (native : Native)

inductive ValueType where
  | number | string | boolean | nil | function
  deriving DecidableEq

def ValueType.name : ValueType → String
  | number => "number"
  | string => "string"
  | boolean => "boolean"
  | nil => "nil"
  | function => "function"

namespace Value

def type : Value → ValueType
  | number _ => .number
  | string _ => .string
  | boolean _ => .boolean
  | nil => .nil
  | closure _ => .function
  | native _ => .function

/-- All values count as true but `nil`, `false` and zero. -/
def isTruthy : Value → Bool
  | nil => false
  | boolean value => value
  | number value => value != 0.0
  | _ => true

def isCallable : Value → Bool
  | closure _ => true
  | native _ => true
  | _ => false

/-- Equality of programs: numbers as numbers, so that no undefined number equals itself; functions by
identity. -/
def same : Value → Value → Bool
  | number a, number b => a == b
  | string a, string b => a == b
  | boolean a, boolean b => a == b
  | nil, nil => true
  | closure a, closure b => a.identity == b.identity
  | native a, native b => a.identity == b.identity
  | _, _ => false

def display : Value → String
  | number value => Number.text value
  | string text => text
  | boolean value => if value then "true" else "false"
  | nil => "nil"
  | closure made => s!"<fn {made.name}>"
  | native known => s!"<native fn {known.name}>"

/-- A value as echoed: strings are quoted. -/
def echo : Value → String
  | string text => String.ofList (Quoted.quote text.toList)
  | value => value.display

end Value

end Scriptlet
