import Scriptlet.Grammar.Error
import Scriptlet.Machine.Error
import Scriptlet.Text.Uppercase

/-! Failures of any kind, and the words that describe them. -/

set_option autoImplicit false

namespace Scriptlet

/-- A source cannot be cut into tokens, is no program, or stops before its end. -/
inductive Failure where
  | lexical (error : LexError)
  | syntactic (error : SyntaxError)
  | runtime (error : RuntimeError)
  deriving DecidableEq

/-- A headline says what went wrong, a label what is wrong at the marked place. -/
structure Description where
  headline : String
  label : String
  deriving DecidableEq

def LexError.describe (error : LexError) : Description :=
  let label :=
    match error.cause with
    | .unexpectedCharacter c => s!"Unexpected character '{c}'"
    | .unterminatedString => "This string is never closed"
    | .unknownEscape c => s!"Unknown escape sequence '\\{c}'"
  ⟨"Lexer error", label⟩

def SyntaxError.describe : SyntaxError → Description
  | unexpectedToken expected found _ =>
    ⟨s!"Unexpected token: {found.spelling}", s!"Expected {expected.text}"⟩
  | expectedExpression found _ =>
    ⟨s!"Unexpected token: {found.spelling}", "Expected an expression here"⟩
  | expectedIdentifier found _ =>
    ⟨s!"Unexpected token: {found.spelling}", "Expected an identifier here"⟩
  | invalidTarget _ => ⟨"Invalid assignment target", "Only variables can be assigned to"⟩
  | controlOutsideLoop word _ =>
    ⟨s!"'{word.spelling}' outside of a loop", "This statement must be inside a while or for loop"⟩
  | lexical error => ⟨"Lexer error", error.message⟩

def ScopeError.describe : ScopeError → Description
  | undefinedVariable name _ =>
    ⟨"Undefined variable `" ++ name ++ "`", "This name is not defined in the current scope"⟩
  | undefinedTarget name _ =>
    ⟨"Cannot assign to undefined variable `" ++ name ++ "`",
      "Declare it with `let` first"⟩

def RuntimeError.describe : RuntimeError → Description
  | unbound error => error.describe
  | typeMismatch mismatch _ => ⟨"Type mismatch", Uppercase.capitalize mismatch.message⟩
  | divisionByZero _ => ⟨"Division by zero", "The divisor evaluates to zero"⟩
  | arityMismatch name expected found _ =>
    ⟨"Wrong number of arguments to `" ++ name ++ "`",
      s!"Expected {expected.text} argument(s), got {found}"⟩
  | notCallable found _ => ⟨"Not callable", s!"A {found.name} value cannot be called"⟩
  | stackOverflow limit _ => ⟨"Stack overflow", s!"Call depth exceeded {limit} here"⟩
  | native message _ => ⟨"Native function failed", Uppercase.capitalize message⟩

namespace Failure

/-- A fault of the text below the grammar is told as such. -/
def ofSyntaxError : SyntaxError → Failure
  | .lexical error => lexical error
  | error => syntactic error

def span : Failure → Span
  | lexical error => error.span
  | syntactic error => error.span
  | runtime error => error.span

def message : Failure → String
  | lexical error => error.message
  | syntactic error => error.message
  | runtime error => error.message

def describe : Failure → Description
  | lexical error => error.describe
  | syntactic error => error.describe
  | runtime error => error.describe

def plainLine (failure : Failure) (name : String) (source : List Char) : String :=
  let (line, column) := failure.span.lineColumn source
  s!"{name}:{line}:{column}: error: {failure.message}"

end Failure

end Scriptlet
