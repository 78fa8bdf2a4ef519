import Scriptlet.Text.Printable
import Scriptlet.Token.Stream

/-! Listings of tokens, one to a line, for people who debug a script. -/

set_option autoImplicit false

namespace Scriptlet

def Keyword.label : Keyword → String
  | letWord => "Let"
  | fnWord => "Fn"
  | ifWord => "If"
  | elseWord => "Else"
  | whileWord => "While"
  | forWord => "For"
  | returnWord => "Return"
  | breakWord => "Break"
  | continueWord => "Continue"
  | trueWord => "True"
  | falseWord => "False"
  | nilWord => "Nil"

def Mark.label : Mark → String
  | plus => "Plus"
  | minus => "Minus"
  | star => "Star"
  | slash => "Slash"
  | percent => "Percent"
  | bang => "Bang"
  | bangEqual => "BangEqual"
  | equal => "Equal"
  | equalEqual => "EqualEqual"
  | less => "Less"
  | lessEqual => "LessEqual"
  | greater => "Greater"
  | greaterEqual => "GreaterEqual"
  | andAnd => "AndAnd"
  | orOr => "OrOr"
  | leftParen => "LParen"
  | rightParen => "RParen"
  | leftBrace => "LBrace"
  | rightBrace => "RBrace"
  | comma => "Comma"
  | semicolon => "Semicolon"

namespace Kind

def label : Kind → String
  | number _ => "Number"
  | string _ => "String"
  | identifier _ => "Identifier"
  | keyword word => word.label
  | mark symbol => symbol.label
  | endOfInput => "Eof"

def visible (text : String) : String := String.ofList (Printable.quote text.toList)

/-- The name of a kind of token with its value, if it has one, in parentheses. -/
def listed (kind : Kind) : String :=
  match kind with
  | number value => s!"{kind.label}({Number.markedText value})"
  | string value => s!"{kind.label}({visible value})"
  | identifier name => s!"{kind.label}({visible name})"
  | _ => kind.label

end Kind

/-- Fill a text up to a width with spaces; a longer text stays as it is. -/
def padded (width : Nat) (text : String) : String :=
  text ++ String.ofList (List.replicate (width - text.length) ' ')

def Token.listed (token : Token) : String :=
  padded 10 token.span.text ++ " " ++ padded 16 token.kind.listed ++ " " ++
    Kind.visible token.lexeme

end Scriptlet
