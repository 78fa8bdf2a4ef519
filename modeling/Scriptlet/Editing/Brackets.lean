/-! The brackets of a text, told apart from those within strings and comments. -/

set_option autoImplicit false

namespace Scriptlet

inductive ScanMode where
  | code | string | escape | comment
  deriving DecidableEq

inductive Bracket where
  | paren | brace
  deriving DecidableEq

namespace Bracket

def opening? : Char → Option Bracket
  | '(' => some paren
  | '\x7b' => some brace
  | _ => none

def closing? : Char → Option Bracket
  | ')' => some paren
  | '\x7d' => some brace
  | _ => none

def opening : Bracket → Char
  | paren => '('
  | brace => '\x7b'

end Bracket

/-- Brackets by their byte offsets. `pairs` come in the order of their closing ones; `opened` are
those without a closing one so far, the last of them first. -/
structure Brackets where
  pairs : List (Nat × Nat)
  unmatched : List Nat
  opened : List (Bracket × Nat)
  mode : ScanMode
  deriving DecidableEq

namespace Brackets

def empty : Brackets := ⟨[], [], [], .code⟩

def inString (brackets : Brackets) : Bool :=
  brackets.mode == .string || brackets.mode == .escape

/-- Meet a closing bracket: it closes the last opened one, or both are unmatched if they differ. -/
def close (brackets : Brackets) (bracket : Bracket) (offset : Nat) : Brackets :=
  match brackets.opened with
  | [] => { brackets with unmatched := brackets.unmatched ++ [offset] }
  | (opener, place) :: rest =>
    if opener = bracket then
      { brackets with pairs := brackets.pairs ++ [(place, offset)], opened := rest }
    else
      { brackets with unmatched := brackets.unmatched ++ [place, offset], opened := rest }

def stepCode (brackets : Brackets) (offset : Nat) (c : Char) (next : Option Char) : Brackets :=
  if c = '"' then { brackets with mode := .string }
  else if c = '/' && next == some '/' then { brackets with mode := .comment }
  else
    match Bracket.opening? c with
    | some bracket => { brackets with opened := (bracket, offset) :: brackets.opened }
    | none =>
      match Bracket.closing? c with
      | some bracket => brackets.close bracket offset
      | none => brackets

def step (brackets : Brackets) (offset : Nat) (c : Char) (next : Option Char) : Brackets :=
  match brackets.mode with
  | .code => brackets.stepCode offset c next
  | .string =>
    if c = '\\' then { brackets with mode := .escape }
    else if c = '"' then { brackets with mode := .code }
    else brackets
  | .escape => { brackets with mode := .string }
  | .comment => if c = '\n' then { brackets with mode := .code } else brackets

def scanFrom (offset : Nat) (brackets : Brackets) : List Char → Brackets
  | [] => brackets
  | c :: rest => scanFrom (offset + c.utf8Size) (brackets.step offset c rest.head?) rest

def scan (text : List Char) : Brackets := scanFrom 0 empty text

def stillOpen (brackets : Brackets) : List (Bracket × Nat) := brackets.opened.reverse

end Brackets

end Scriptlet
