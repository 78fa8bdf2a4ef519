import Scriptlet.Proofs.Grammar.Relocation
import Scriptlet.Proofs.Token.Cutting

/-! Tokens that all stand further on in a source are read to the same, with every span moved as they
are.
-/

set_option autoImplicit false

namespace Scriptlet

def Node.shift (node : Node) (distance : Nat) : Node := node.mapSpans (·.shift distance)

def SyntaxError.shift (distance : Nat) : SyntaxError → SyntaxError
  | unexpectedToken expected found span => .unexpectedToken expected found (span.shift distance)
  | expectedExpression found span => .expectedExpression found (span.shift distance)
  | expectedIdentifier found span => .expectedIdentifier found (span.shift distance)
  | invalidTarget span => .invalidTarget (span.shift distance)
  | controlOutsideLoop word span => .controlOutsideLoop word (span.shift distance)
  | lexical error => .lexical (error.shift distance)

def Reader.shift (reader : Reader) (distance : Nat) : Reader :=
  { reader with current := reader.current.shift distance, rest := reader.rest.shift distance }

theorem Token.kind_shift (token : Token) (distance : Nat) :
    (token.shift distance).kind = token.kind := rfl

def Outcome.shift {α β : Type} (distance : Nat) (change : α → β) :
    Outcome SyntaxError Reader α → Outcome SyntaxError Reader β
  | done value reader => .done (change value) (reader.shift distance)
  | failed error reader => .failed (error.shift distance) (reader.shift distance)
  | cutOff => .cutOff

def shifting (distance : Nat) : Nat →o Nat where
  toFun := (· + distance)
  monotone' _ _ le := Nat.add_le_add_right le distance

namespace Stream

theorem relocate_shifting (stream : Stream) (distance : Nat) :
    stream.relocate (shifting distance) = stream.shift distance := by
  induction stream with
  | token head rest ih => exact congrArg _ ih
  | ending | fault | exhausted => rfl

end Stream

theorem Reader.relocate_shifting (reader : Reader) (distance : Nat) :
    reader.relocate (shifting distance) = reader.shift distance := by
  rw [relocate, Stream.relocate_shifting]
  rfl

theorem SyntaxError.relocate_shifting (error : SyntaxError) (distance : Nat) :
    error.relocate (shifting distance) = error.shift distance := by
  cases error <;> rfl

theorem Outcome.relocate_shifting {α β : Type} (outcome : Outcome SyntaxError Reader α)
    (distance : Nat) (change : α → β) :
    outcome.relocate (shifting distance) change = outcome.shift distance change := by
  cases outcome with
  | done value reader => rw [relocate, shift, Reader.relocate_shifting]
  | failed error reader =>
    rw [relocate, shift, SyntaxError.relocate_shifting, Reader.relocate_shifting]
  | cutOff => rfl

namespace Parse

variable {α β : Type} {distance : Nat}

/-- A part does at another place what the first one does, with values changed as they have to be,
unless one of the two is cut off. -/
def Moves (distance : Nat) (change : α → β) (part : Parse α) (other : Parse β) : Prop :=
  ∀ reader : Reader, part reader ≠ .cutOff → other (reader.shift distance) ≠ .cutOff →
    other (reader.shift distance) = (part reader).shift distance change

theorem Relocates.moves {change : α → β} {part : Parse α} {other : Parse β}
    (relocates : Relocates (shifting distance) change part other) :
    Moves distance change part other := by
  intro reader ends endsOther
  rw [← Reader.relocate_shifting] at endsOther ⊢
  rw [relocates reader ends endsOther, Outcome.relocate_shifting]

theorem moves_expression (distance fuel more : Nat) :
    Moves distance (Node.shift · distance) (expression fuel) (expression more) :=
  (relocates_expression (shifting distance) fuel more).moves

theorem moves_sequence (distance fuel more : Nat) (inBraces : Bool) :
    Moves distance (List.map (Node.shift · distance)) (sequence fuel inBraces)
      (sequence more inBraces) :=
  ((statementRelocates (shifting distance) fuel more).sequence inBraces).moves

end Parse

end Scriptlet
