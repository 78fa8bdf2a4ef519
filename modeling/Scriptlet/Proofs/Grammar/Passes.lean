import Scriptlet.Grammar.Expression
import Scriptlet.Proofs.Contract

/-! Stretches of tokens, known by their kinds alone. -/

set_option autoImplicit false

namespace Scriptlet

/-- Tokens of these kinds, given away one after the other, lead from one reader to another. -/
inductive Passes : List Kind → Reader → Reader → Prop where
  | nil {reader : Reader} : Passes [] reader reader
  | cons {kinds : List Kind} {token : Token} {reader next after : Reader} :
    Parse.advance reader = .done token next → Passes kinds next after →
      Passes (reader.current.kind :: kinds) reader after

namespace Passes

theorem append_iff {first rest : List Kind} {reader after : Reader} :
    Passes (first ++ rest) reader after ↔
      ∃ middle, Passes first reader middle ∧ Passes rest middle after := by
  constructor
  · intro passes
    induction first generalizing reader with
    | nil => exact ⟨reader, .nil, passes⟩
    | cons kind first ih =>
      cases passes with
      | cons given passes =>
        obtain ⟨middle, low, high⟩ := ih passes
        exact ⟨middle, .cons given low, high⟩
  · rintro ⟨middle, low, high⟩
    induction low with
    | nil => exact high
    | cons given _ ih => exact .cons given (ih high)

theorem cons_iff {kind : Kind} {kinds : List Kind} {reader after : Reader} :
    Passes (kind :: kinds) reader after ↔
      reader.current.kind = kind ∧
        ∃ token next, Parse.advance reader = .done token next ∧ Passes kinds next after := by
  constructor
  · intro passes
    cases passes with
    | cons given passes => exact ⟨rfl, _, _, given, passes⟩
  · rintro ⟨rfl, token, next, given, passes⟩
    exact .cons given passes

theorem nil_iff {reader after : Reader} : Passes [] reader after ↔ after = reader := by
  constructor
  · intro passes
    cases passes
    rfl
  · rintro rfl
    exact .nil

end Passes

theorem Parse.expect_of_kind {symbol : Mark} {expected : Expectation} {reader after : Reader}
    {token : Token} (kind : reader.current.kind = .mark symbol)
    (given : Parse.advance reader = .done token after) :
    Parse.expect symbol expected reader = .done token after := by
  rw [Parse.expect, Parse.sees_bind, beq_iff_eq.mpr kind]
  exact given

theorem Parse.loops_of_advance {reader next : Reader} {token : Token}
    (given : Parse.advance reader = .done token next) : next.loops = reader.loops := by
  unfold Parse.advance at given
  split at given
  · cases given
    rfl
  · split at given <;> cases given <;> rfl

theorem Parse.advance_withLoops {reader next : Reader} {token : Token}
    (given : Parse.advance reader = .done token next) (loops : Nat) :
    Parse.advance { reader with loops := loops } = .done token { next with loops := loops } := by
  unfold Parse.advance at given ⊢
  split at given
  · cases given
    rw [if_pos (by assumption)]
  · rw [if_neg (by assumption)]
    split at given <;> cases given <;> simp only [*]

namespace Passes

theorem loops {kinds : List Kind} {reader after : Reader} (passes : Passes kinds reader after) :
    after.loops = reader.loops := by
  induction passes with
  | nil => rfl
  | cons given _ ih => rw [ih, Parse.loops_of_advance given]

theorem withLoops {kinds : List Kind} {reader after : Reader} (passes : Passes kinds reader after)
    (loops : Nat) : Passes kinds { reader with loops := loops } { after with loops := loops } := by
  induction passes with
  | nil => exact .nil
  | cons given _ ih => exact .cons (Parse.advance_withLoops given loops) ih

variable {α : Type} {good : α → Reader → Prop} {bad : SyntaxError → Reader → Prop}
  {kinds : List Kind} {reader after : Reader} {next : Token → Parse α}

theorem meets_advance {kind : Kind} (passes : Passes (kind :: kinds) reader after)
    (goesOn : ∀ token middle, Passes kinds middle after → (next token middle).Meets good bad) :
    ((Parse.advance >>= next) reader).Meets good bad := by
  obtain ⟨_, token, middle, given, passes⟩ := cons_iff.mp passes
  exact Action.meets_bind_of_done given (goesOn token middle passes)

theorem meets_expect {symbol : Mark} {expected : Expectation}
    (passes : Passes (.mark symbol :: kinds) reader after)
    (goesOn : ∀ token middle, Passes kinds middle after → (next token middle).Meets good bad) :
    ((Parse.expect symbol expected >>= next) reader).Meets good bad := by
  obtain ⟨current, token, middle, given, passes⟩ := cons_iff.mp passes
  exact Action.meets_bind_of_done (Parse.expect_of_kind current given) (goesOn token middle passes)

theorem meets_identifier {name : String} {next : String → Parse α}
    (passes : Passes (.identifier name :: kinds) reader after)
    (goesOn : ∀ middle, Passes kinds middle after → (next name middle).Meets good bad) :
    ((Parse.identifier >>= next) reader).Meets good bad := by
  obtain ⟨current, token, middle, given, passes⟩ := cons_iff.mp passes
  have found : Parse.identifier reader = .done name middle := by
    rw [Parse.identifier, Parse.current_bind, current]
    dsimp only
    rw [Action.bind_apply, given]
    rfl
  exact Action.meets_bind_of_done found (goesOn middle passes)

end Passes

/-! Tokens that are looked for are not the end of input -/

namespace Parse

theorem ne_endOfInput_of_atom? {token : Token} {node : Node} (known : atom? token = some node) :
    token.kind ≠ .endOfInput := by
  intro ends
  unfold atom? at known
  rw [ends] at known
  cases known

theorem ne_endOfInput_of_ofKind? {kind : Kind} {found : Nat × Operator}
    (known : Operator.ofKind? kind = some found) : kind ≠ .endOfInput := by
  rintro rfl
  cases known

theorem ne_endOfInput_of_unary? {kind : Kind} {op : UnaryOp}
    (known : UnaryOp.ofKind? kind = some op) : kind ≠ .endOfInput := by
  rintro rfl
  cases known

end Parse

end Scriptlet
