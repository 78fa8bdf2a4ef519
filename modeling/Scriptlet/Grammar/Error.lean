import Scriptlet.Token.Stream

/-! Why a source is not a program, and how that is said. -/

set_option autoImplicit false

namespace Scriptlet

/-- What has to stand at a place where nothing else can. -/
inductive Expectation where
  | equalAfterName
  | semicolonAfterLet
  | parenAfterFunctionName
  | parenAfterParameters
  | openingBrace
  | braceAfterBlock
  | parenAfter (word : Keyword)
  | parenAfterCondition
  | semicolonAfterInitializer
  | semicolonAfterCondition
  | parenAfterClauses
  | semicolonAfterReturn
  | semicolonAfter (word : Keyword)
  | semicolonAfterExpression
  | parenAfterArguments
  | parenAfterExpression
  deriving DecidableEq

def Expectation.text : Expectation → String
  | equalAfterName => "'=' after variable name"
  | semicolonAfterLet => "';' after let statement"
  | parenAfterFunctionName => "'(' after function name"
  | parenAfterParameters => "')' after parameters"
  | openingBrace => "'\x7b'"
  | braceAfterBlock => "'\x7d' after block"
  | parenAfter word => "'(' after '" ++ word.spelling ++ "'"
  | parenAfterCondition => "')' after condition"
  | semicolonAfterInitializer => "';' after loop initializer"
  | semicolonAfterCondition => "';' after loop condition"
  | parenAfterClauses => "')' after for clauses"
  | semicolonAfterReturn => "';' after return value"
  | semicolonAfter word => "';' after '" ++ word.spelling ++ "'"
  | semicolonAfterExpression => "';' after expression"
  | parenAfterArguments => "')' after arguments"
  | parenAfterExpression => "')' after expression"

inductive SyntaxError where
  | unexpectedToken (expected : Expectation) (found : Kind) (span : Span)
  | expectedExpression (found : Kind) (span : Span)
  | expectedIdentifier (found : Kind) (span : Span)
  | invalidTarget (span : Span)
  | controlOutsideLoop (word : Keyword) (span : Span)
  | lexical (error : LexError)
  deriving DecidableEq

namespace SyntaxError

def span : SyntaxError → Span
  | unexpectedToken _ _ span => span
  | expectedExpression _ span => span
  | expectedIdentifier _ span => span
  | invalidTarget span => span
  | controlOutsideLoop _ span => span
  | lexical error => error.span

def message : SyntaxError → String
  | unexpectedToken expected found span =>
    s!"expected {expected.text}, found '{found.spelling}' at {span.text}"
  | expectedExpression found span =>
    s!"expected an expression, found '{found.spelling}' at {span.text}"
  | expectedIdentifier found span =>
    s!"expected an identifier, found '{found.spelling}' at {span.text}"
  | invalidTarget span => s!"invalid assignment target at {span.text}"
  | controlOutsideLoop word span => s!"'{word.spelling}' outside of a loop at {span.text}"
  | lexical error => error.message

end SyntaxError

end Scriptlet
