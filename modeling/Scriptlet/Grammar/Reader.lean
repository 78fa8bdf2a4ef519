import Scriptlet.Action
import Scriptlet.Grammar.Error

/-! A source being read: one token in hand and the stream of those after it. -/

set_option autoImplicit false

namespace Scriptlet

/-- `loops` counts the loops around the current statement, within its function. -/
structure Reader where
  current : Token
  rest : Stream
  loops : Nat
  deriving DecidableEq

/-- Parts of the grammar: they consume tokens and yield what they read. -/
abbrev Parse (α : Type) := Action SyntaxError Reader α

namespace Reader

def start (source : List Char) : Except LexError Reader :=
  match Stream.scan 0 source with
  | .token token rest => .ok ⟨token, rest, 0⟩
  | .ending offset => .ok ⟨Token.ending offset, .exhausted, 0⟩
  | .fault error => .error error
  | .exhausted => .ok ⟨Token.ending (byteWidth source), .exhausted, 0⟩

/-- The number of tokens that can still be given away. -/
def left (reader : Reader) : Nat :=
  if reader.current.kind = .endOfInput then 0 else reader.rest.size + 1

end Reader

namespace Parse

def current : Parse Token := Action.read Reader.current

def sees (kind : Kind) : Parse Bool := Action.read fun reader => reader.current.kind == kind

def inLoop : Parse Bool := Action.read fun reader => reader.loops != 0

/-- Give the current token away and take the next one in hand.

The end of input stays in hand. If the next token is faulty, so does the current one, and all that is
left after it is the end of input.
-/
def advance : Parse Token := fun reader =>
  if reader.current.kind = .endOfInput then
    .done reader.current reader
  else
    match reader.rest with
    | .token next rest => .done reader.current { reader with current := next, rest := rest }
    | .ending offset =>
      .done reader.current { reader with current := Token.ending offset, rest := .exhausted }
    | .fault error => .failed (.lexical error) { reader with rest := .exhausted }
    | .exhausted =>
      .done reader.current { reader with current := Token.ending reader.current.span.stop }

def expect (symbol : Mark) (expected : Expectation) : Parse Token := do
  if ← sees (.mark symbol) then
    advance
  else
    let found ← current
    Action.fail (.unexpectedToken expected found.kind found.span)

def identifier : Parse String := do
  let found ← current
  match found.kind with
  | .identifier name =>
    let _ ← advance
    pure name
  | _ => Action.fail (.expectedIdentifier found.kind found.span)

def insideLoop {α : Type} (body : Parse α) : Parse α :=
  Action.around (fun reader => { reader with loops := reader.loops + 1 })
    (fun reader => { reader with loops := reader.loops - 1 }) body

/-- Read a function body: loops around a definition do not extend into it. -/
def outsideLoops {α : Type} (body : Parse α) : Parse α := fun reader =>
  Action.around (fun reader => { reader with loops := 0 })
    (fun after => { after with loops := reader.loops }) body reader

theorem current_bind {β : Type} (next : Token → Parse β) (reader : Reader) :
    (current >>= next) reader = next reader.current reader := rfl

theorem sees_bind {β : Type} (kind : Kind) (next : Bool → Parse β) (reader : Reader) :
    (sees kind >>= next) reader = next (reader.current.kind == kind) reader := rfl

theorem inLoop_bind {β : Type} (next : Bool → Parse β) (reader : Reader) :
    (inLoop >>= next) reader = next (reader.loops != 0) reader := rfl

theorem eq_current_of_advance {reader next : Reader} {token : Token}
    (given : advance reader = .done token next) : token = reader.current := by
  unfold advance at given
  split at given
  · cases given
    rfl
  · split at given <;> cases given <;> rfl

end Parse

end Scriptlet
