import Scriptlet.Text.NameSet
import Scriptlet.Token.Stream

/-! Completion of the word that ends at the cursor. -/

set_option autoImplicit false

namespace Scriptlet.Completion

/-- The last token before a cursor, if the text up to there can be cut into tokens. -/
def lastToken? (before : List Char) : Option Token :=
  match tokenize before with
  | .ok tokens => tokens.reverse.find? fun token => token.kind != .endOfInput
  | .error _ => none

def candidates (names : List String) (start : String) : List String :=
  (NameSet.ofList (names ++ Keyword.all.map Keyword.spelling)).filter fun name =>
    start.toList.isPrefixOf name.toList

/-- Where the word to complete starts and what it can become. Without a word at the cursor there is
nothing to offer. -/
def complete (names : List String) (line : List Char) (cursor : Nat) : Nat × List String :=
  match (takeBytes? cursor line).bind lastToken? with
  | none => (cursor, [])
  | some token =>
    if token.kind.isWord && token.span.stop == cursor then
      (token.span.start, candidates names token.lexeme)
    else
      (cursor, [])

end Scriptlet.Completion
