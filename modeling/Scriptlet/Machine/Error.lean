import Scriptlet.Scope.Store

/-! Why a program stops before its end, and how that is said. -/

set_option autoImplicit false

namespace Scriptlet

/-- A value of a type that an operator or a function cannot take. -/
inductive Mismatch where
  | operand (op : UnaryOp) (found : ValueType)
  | operands (op : BinaryOp) (left right : ValueType)
  | argument (function : String) (expected found : ValueType)
  deriving DecidableEq

def Mismatch.message : Mismatch → String
  | operand op found => s!"operator '{op.symbol}' cannot be applied to {found.name}"
  | operands op left right =>
    s!"operator '{op.symbol}' cannot be applied to {left.name} and {right.name}"
  | argument function expected found =>
    s!"'{function}' expects a {expected.name}, got {found.name}"

inductive RuntimeError where
  | unbound (error : ScopeError)
  | typeMismatch (mismatch : Mismatch) (span : Span)
  | divisionByZero (span : Span)
  | arityMismatch (name : String) (expected : Arity) (found : Nat) (span : Span)
  | notCallable (found : ValueType) (span : Span)
  | stackOverflow (limit : Nat) (span : Span)
  | native (message : String) (span : Span)
  deriving DecidableEq

namespace RuntimeError

def span : RuntimeError → Span
  | unbound error => error.span
  | typeMismatch _ span => span
  | divisionByZero span => span
  | arityMismatch _ _ _ span => span
  | notCallable _ span => span
  | stackOverflow _ span => span
  | native _ span => span

def message : RuntimeError → String
  | unbound error => error.message
  | typeMismatch mismatch _ => s!"type mismatch: {mismatch.message}"
  | divisionByZero _ => "division by zero"
  | arityMismatch name expected found _ =>
    s!"'{name}' expects {expected.text} argument(s), got {found}"
  | notCallable found _ => s!"a {found.name} value is not callable"
  | stackOverflow limit _ => s!"maximum call depth of {limit} exceeded"
  | native message _ => message

end RuntimeError

end Scriptlet
