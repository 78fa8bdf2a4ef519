import Scriptlet.Number.Layout
import Scriptlet.Text.Span

/-! Tokens: words, literals and marks, each with its text and the place it was read from. -/

set_option autoImplicit false

namespace Scriptlet

inductive Keyword where
  | letWord | fnWord | ifWord | elseWord | whileWord | forWord | returnWord
  | breakWord | continueWord | trueWord | falseWord | nilWord
  deriving DecidableEq

namespace Keyword

def spelling : Keyword → String
  | letWord => "let"
  | fnWord => "fn"
  | ifWord => "if"
  | elseWord => "else"
  | whileWord => "while"
  | forWord => "for"
  | returnWord => "return"
  | breakWord => "break"
  | continueWord => "continue"
  | trueWord => "true"
  | falseWord => "false"
  | nilWord => "nil"

def all : List Keyword :=
  [letWord, fnWord, ifWord, elseWord, whileWord, forWord, returnWord,
    breakWord, continueWord, trueWord, falseWord, nilWord]

def ofSpelling? (word : String) : Option Keyword :=
  all.find? fun keyword => keyword.spelling == word

end Keyword

inductive Mark where
  | plus | minus | star | slash | percent | bang | bangEqual | equal | equalEqual
  | less | lessEqual | greater | greaterEqual | andAnd | orOr
  | leftParen | rightParen | leftBrace | rightBrace | comma | semicolon
  deriving DecidableEq

namespace Mark

def spelling : Mark → String
  | plus => "+"
  | minus => "-"
  | star => "*"
  | slash => "/"
  | percent => "%"
  | bang => "!"
  | bangEqual => "!="
  | equal => "="
  | equalEqual => "=="
  | less => "<"
  | lessEqual => "<="
  | greater => ">"
  | greaterEqual => ">="
  | andAnd => "&&"
  | orOr => "||"
  | leftParen => "("
  | rightParen => ")"
  | leftBrace => "\x7b"
  | rightBrace => "\x7d"
  | comma => ","
  | semicolon => ";"

end Mark

/-- What a token is; literals carry their values. -/
inductive Kind where
  | number (value : Float)
  | string (value : String)
  | identifier (name : String)
  | keyword (word : Keyword)
  | mark (symbol : Mark)
  | endOfInput
  deriving DecidableEq

namespace Kind

/-- How messages name a token. -/
def spelling : Kind → String
  | number value => Number.text value
  | string value => "\"" ++ value ++ "\""
  | identifier name => name
  | keyword word => word.spelling
  | mark symbol => symbol.spelling
  | endOfInput => "end of input"

def isKeyword : Kind → Bool
  | keyword _ => true
  | _ => false

/-- Words are what completion can extend. -/
def isWord : Kind → Bool
  | keyword _ => true
  | identifier _ => true
  | _ => false

end Kind

/-- A token with the source text that it covers. -/
structure Token where
  kind : Kind
  lexeme : String
  span : Span
  deriving DecidableEq

def Token.ending (offset : Nat) : Token := ⟨.endOfInput, "", Span.point offset⟩

end Scriptlet
