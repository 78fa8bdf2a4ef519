/-! String literals: what an escape stands for, and how a text is written as a literal. -/

set_option autoImplicit false

namespace Scriptlet.Quoted

/-- The character that a backslash followed by `mark` stands for. -/
def escaped? (mark : Char) : Option Char :=
  match mark with
  | 'n' => some '\n'
  | 't' => some '\t'
  | 'r' => some '\r'
  | '0' => some '\x00'
  | '"' => some '"'
  | '\\' => some '\\'
  | _ => none

def written (c : Char) : List Char :=
  match c with
  | '"' => ['\\', '"']
  | '\\' => ['\\', '\\']
  | '\n' => ['\\', 'n']
  | '\r' => ['\\', 'r']
  | '\t' => ['\\', 't']
  | '\x00' => ['\\', '0']
  | _ => [c]

/-- A literal that reads back as the text. -/
def quote (text : List Char) : List Char :=
  '"' :: (text.flatMap written ++ ['"'])

end Scriptlet.Quoted
