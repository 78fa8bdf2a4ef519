import Scriptlet.Grammar.Reader
import Scriptlet.Proofs.Tree.WellFormed

/-! Tokens that sources can hold: names are words that are not reserved, numbers are digits. -/

set_option autoImplicit false

namespace Scriptlet

/-- Whether there is a text for a kind of token. -/
def Kind.Lexical : Kind → Prop
  | .number value => IsLiteral value
  | .identifier name => IsName name
  | _ => True

theorem Lexeme.lexical_readNumber {first : Char} {rest tail after : List Char} {kind : Kind}
    (digit : isDigit first = true)
    (found : Lexeme.readNumber first rest = .token kind tail after) : kind.Lexical := by
  have digits (text : List Char) : ∀ c ∈ text.takeWhile isDigit, isDigit c = true := by
    intro c member
    exact List.all_eq_true.mp List.all_takeWhile c member
  unfold Lexeme.readNumber at found
  dsimp only at found
  split at found
  · cases found
    exact ⟨first, _, _, digit, digits rest, digits _, rfl⟩
  · cases found
    exact ⟨first, _, [], digit, digits rest, by simp, rfl⟩

theorem Lexeme.lexical_readWord {first : Char} {rest tail after : List Char} {kind : Kind}
    (letter : isLetter first = true)
    (found : Lexeme.readWord first rest = .token kind tail after) : kind.Lexical := by
  unfold Lexeme.readWord at found
  cases found
  unfold Lexeme.wordKind
  split
  · trivial
  · next unreserved =>
    refine ⟨first, _, String.toList_ofList, letter, fun c member => ?_, unreserved⟩
    exact List.all_eq_true.mp List.all_takeWhile c member

theorem Lexeme.lexical_readMark {first : Char} {rest tail after : List Char} {kind : Kind}
    (found : Lexeme.readMark first rest = .token kind tail after) : kind.Lexical := by
  have pair : ∀ (second : Char) (long : Mark) (short : Lexeme),
      (∀ kind tail after, short = .token kind tail after → kind.Lexical) →
      Lexeme.readPair second long short rest = .token kind tail after → kind.Lexical := by
    intro second long short single paired
    cases rest with
    | nil => exact single _ _ _ paired
    | cons next more =>
      rw [Lexeme.readPair] at paired
      split at paired
      · cases paired
        trivial
      · exact single _ _ _ paired
  unfold Lexeme.readMark at found
  dsimp only at found
  split at found <;>
    first
    | exact pair _ _ _ (fun _ _ _ same => by cases same <;> trivial) found
    | (cases found <;> trivial)

theorem Lexeme.lexical_read {first : Char} {rest tail after : List Char} {kind : Kind}
    (found : Lexeme.read first rest = .token kind tail after) : kind.Lexical := by
  unfold Lexeme.read at found
  split at found
  · exact lexical_readNumber (by assumption) found
  · split at found
    · exact lexical_readWord (by assumption) found
    · split at found
      · unfold Lexeme.readString at found
        split at found <;> cases found
        trivial
      · exact lexical_readMark found

def Stream.Lexical : Stream → Prop
  | .token head rest => head.kind.Lexical ∧ rest.Lexical
  | _ => True

theorem Stream.lexical_scan (offset : Nat) (source : List Char) : (scan offset source).Lexical := by
  fun_induction scan offset source with
  | case1 => trivial
  | case2 _ _ _ _ _ _ _ _ _ found _ ih => exact ⟨Lexeme.lexical_read found, ih⟩
  | case3 => trivial

def Reader.Lexical (reader : Reader) : Prop :=
  reader.current.kind.Lexical ∧ reader.rest.Lexical

theorem Reader.lexical_start {source : List Char} {reader : Reader}
    (started : Reader.start source = .ok reader) : reader.Lexical ∧ reader.loops = 0 := by
  have lexical := Stream.lexical_scan 0 source
  unfold Reader.start at started
  split at started
  · next scanned =>
    rw [scanned] at lexical
    cases started
    exact ⟨lexical, rfl⟩
  · cases started
    exact ⟨⟨trivial, trivial⟩, rfl⟩
  · cases started
  · cases started
    exact ⟨⟨trivial, trivial⟩, rfl⟩

theorem Parse.lexical_advance {reader after : Reader} {token : Token} (lexical : reader.Lexical)
    (given : Parse.advance reader = .done token after) : after.Lexical := by
  have rest := lexical.2
  unfold Parse.advance at given
  split at given
  · cases given
    exact lexical
  · split at given
    · next following =>
      rw [following] at rest
      cases given
      exact rest
    · cases given
      exact ⟨trivial, trivial⟩
    · cases given
    · cases given
      exact ⟨trivial, rest⟩

end Scriptlet
