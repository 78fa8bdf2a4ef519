import Scriptlet.Editing.Brackets

/-! Colours for a line under edit: strings, unmatched brackets and the pair at the cursor. -/

set_option autoImplicit false

namespace Scriptlet.Highlight

inductive Colour where
  | green | boldRed | boldBlue
  deriving DecidableEq

/-- The parameters of the terminal sequence that switches a colour on. -/
def Colour.code : Colour → String
  | green => "32"
  | boldRed => "1;31"
  | boldBlue => "1;34"

def paint (c : Char) : Option Colour → String
  | some colour => "\x1b[" ++ colour.code ++ "m" ++ String.singleton c ++ "\x1b[0m"
  | none => String.singleton c

/-- Whether the cursor is right before or right after an offset of one byte. -/
def touches (cursor offset : Nat) : Bool := offset == cursor || offset + 1 == cursor

/-- The first pair, in closing order, with a bracket at the cursor. -/
def activePair? (brackets : Brackets) (cursor : Nat) : Option (Nat × Nat) :=
  brackets.pairs.find? fun pair => touches cursor pair.1 || touches cursor pair.2

/-- Where in a string literal the colouring is. -/
inductive Place where
  | outside | inside | escaped
  deriving DecidableEq

def plainColour (brackets : Brackets) (active : Option (Nat × Nat)) (offset : Nat) :
    Option Colour :=
  if brackets.unmatched.contains offset then some .boldRed
  else
    match active with
    | some (opening, closing) =>
      if offset = opening || offset = closing then some .boldBlue else none
    | none => none

def step (brackets : Brackets) (active : Option (Nat × Nat)) (place : Place) (offset : Nat)
    (c : Char) : Option Colour × Place :=
  match place with
  | .outside =>
    if c = '"' then (some .green, .inside) else (plainColour brackets active offset, .outside)
  | .inside =>
    (some .green, if c = '\\' then .escaped else if c = '"' then .outside else .inside)
  | .escaped => (some .green, .inside)

def colours (brackets : Brackets) (active : Option (Nat × Nat)) (place : Place) (offset : Nat) :
    List Char → List (Char × Option Colour)
  | [] => []
  | c :: rest =>
    let (colour, next) := step brackets active place offset c
    (c, colour) :: colours brackets active next (offset + c.utf8Size) rest

def render (line : List Char) (cursor : Nat) : String :=
  let brackets := Brackets.scan line
  let painted := colours brackets (activePair? brackets cursor) .outside 0 line
  String.join (painted.map fun entry => paint entry.1 entry.2)

end Scriptlet.Highlight
