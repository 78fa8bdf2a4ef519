import Scriptlet.Proofs.Grammar.Headway
import Scriptlet.Proofs.Machine.Declarations

/-! Reading on after an error: the loops around the next statement are none, however deep in loops
and functions the last one failed.
-/

set_option autoImplicit false

namespace Scriptlet

theorem Runnable.children_of_other {inLoop : Bool} {tree : Node} (runnable : Runnable inLoop tree)
    (noFunction : ∀ span name parameters body, tree ≠ .function span name parameters body)
    (noLoop : ∀ span condition body increment, tree ≠ .loop span condition body increment) :
    ∀ child ∈ tree.children, child.IsOperand ∨ Runnable inLoop child := by
  cases tree with
  | function => exact absurd rfl (noFunction _ _ _ _)
  | loop => exact absurd rfl (noLoop _ _ _ _)
  | declare => simpa [Node.children] using Or.inl runnable.declare.isOperand
  | block => exact fun child member => .inr (runnable.block child member)
  | branch =>
    obtain ⟨condition, thenBranch, elseBranch⟩ := runnable.branch
    simp only [Node.children, List.forall_mem_cons, Option.mem_toList]
    refine ⟨.inl condition.isOperand, .inr thenBranch, ?_⟩
    exact fun child member => .inr (elseBranch child member)
  | «return» =>
    simp only [Node.children, Option.mem_toList]
    exact fun child member => .inl (runnable.returning child member).isOperand
  | program => exact absurd runnable Runnable.not_program
  | «break» | «continue» => simp [Node.children]
  | _ =>
    -- what is left are expressions
    intro child member
    cases (runnable.expression rfl).isOperand with
    | intro _ operands => exact .inl (operands child member)

namespace Node

/-- What stands in a tree, and whether a loop body of the tree is around it with no function in
between. -/
inductive Stands (tree : Node) : Bool → Node → Prop where
  | self : Stands tree false tree
  | inFunction {inLoop : Bool} {span : Span} {name : String} {parameters : List String}
    {body : List Node} {node : Node} :
    Stands tree inLoop (.function span name parameters body) → node ∈ body → Stands tree false node
  | inLoopBody {inLoop : Bool} {span : Span} {condition body : Node} {increment : Option Node} :
    Stands tree inLoop (.loop span condition body increment) → Stands tree true body
  | inLoopHead {inLoop : Bool} {span : Span} {condition body node : Node}
    {increment : Option Node} :
    Stands tree inLoop (.loop span condition body increment) →
      node ∈ condition :: increment.toList → Stands tree inLoop node
  | inOther {inLoop : Bool} {outer node : Node} :
    Stands tree inLoop outer →
      (∀ span name parameters body, outer ≠ .function span name parameters body) →
      (∀ span condition body increment, outer ≠ .loop span condition body increment) →
      node ∈ outer.children → Stands tree inLoop node

/-- Every `break` and `continue` in a tree stands in a loop body of the same function. -/
def ControlsHeld (tree : Node) : Prop :=
  ∀ inLoop span, tree.Stands inLoop (.break span) ∨ tree.Stands inLoop (.continue span) →
    inLoop = true

theorem Stands.isOperand_or_runnable {tree node : Node} {inLoop : Bool}
    (stands : tree.Stands inLoop node) (sound : Runnable false tree) :
    node.IsOperand ∨ Runnable inLoop node := by
  induction stands with
  | self => exact .inr sound
  | inFunction _ member ih =>
    rcases ih with ⟨kind, _⟩ | runnable
    · cases kind
    · exact .inr (.statement (runnable.function _ member))
  | inLoopBody _ ih =>
    rcases ih with ⟨kind, _⟩ | runnable
    · cases kind
    · exact .inr (.statement runnable.loop.2.1)
  | inLoopHead _ member ih =>
    rcases ih with ⟨kind, _⟩ | runnable
    · cases kind
    · obtain ⟨condition, _, increment⟩ := runnable.loop
      rcases List.mem_cons.mp member with rfl | isIncrement
      · exact .inl condition.isOperand
      · exact .inl (increment _ (Option.mem_toList.mp isIncrement)).isOperand
  | inOther _ noFunction noLoop member ih =>
    rcases ih with ⟨_, operands⟩ | runnable
    · exact .inl (operands _ member)
    · exact runnable.children_of_other noFunction noLoop _ member

theorem ControlsHeld.of_runnable {tree : Node} (sound : Runnable false tree) :
    tree.ControlsHeld := by
  rintro inLoop span (stands | stands)
  · rcases stands.isOperand_or_runnable sound with ⟨kind, _⟩ | runnable
    · cases kind
    · exact runnable.breaking
  · rcases stands.isOperand_or_runnable sound with ⟨kind, _⟩ | runnable
    · cases kind
    · exact runnable.continuing

end Node

namespace Reader

theorem Gives.lexical {tokens : List Token} {reader after : Reader}
    (gives : Gives tokens reader after) (lexical : reader.Lexical) : after.Lexical := by
  induction gives with
  | nil current rest =>
    unfold Reader.Lexical
    rwa [current, rest]
  | cons _ given _ ih => exact ih (Parse.lexical_advance lexical given)

theorem Reaches.lexical {reader after : Reader} (reaches : reader.Reaches after)
    (lexical : reader.Lexical) : after.Lexical := by
  obtain ⟨tokens, middle, gives, current, rest⟩ := reaches
  have kept := gives.lexical lexical
  unfold Reader.Lexical
  rw [current]
  rcases rest with rest | ⟨fault, _, rest⟩
  · rwa [rest]
  · rw [rest]
    exact ⟨kept.1, trivial⟩

/-- Where a source has been read to by expressions and statements one after the other, each of which
may have failed. -/
inductive Resumed (source : List Char) : Reader → Prop where
  | start {reader : Reader} : Reader.start source = .ok reader → Resumed source reader
  | expression {reader : Reader} : Resumed source reader → Resumed source reader.expression.2
  | statement {reader : Reader} : Resumed source reader → Resumed source reader.statement.2

theorem reaches_result {reader : Reader} {part : Parse Node} {bound : Nat}
    (advances : Parse.Advances bound part reader) (ends : part reader ≠ .cutOff) :
    reader.Reaches ((part reader).result ends).2 ∧
      ((part reader).result ends).2.loops = reader.loops := by
  unfold Parse.Advances at advances
  generalize part reader = outcome at advances ends
  cases outcome with
  | done value after =>
    obtain ⟨⟨tokens, gives⟩, _, same⟩ := advances
    exact ⟨gives.reaches, same⟩
  | failed error after => exact advances
  | cutOff => exact absurd rfl ends

namespace Resumed

variable {source : List Char} {reader : Reader}

theorem kept (resumed : Resumed source reader) : reader.Lexical ∧ reader.loops = 0 := by
  induction resumed with
  | start started => exact lexical_start started
  | @expression reader _ ih =>
    have begins : Parse.Part.expression.Begins reader := trivial
    obtain ⟨reaches, same⟩ :=
      reaches_result (Parse.Part.advances reader.fuel begins) reader.expression_ends
    exact ⟨reaches.lexical ih.1, same.trans ih.2⟩
  | @statement reader _ ih =>
    have begins : Parse.Part.statement.Begins reader := trivial
    obtain ⟨reaches, same⟩ :=
      reaches_result (Parse.Part.advances reader.fuel begins) reader.statement_ends
    exact ⟨reaches.lexical ih.1, same.trans ih.2⟩

theorem controlsHeld (lexical : reader.Lexical) (outside : reader.loops = 0) {tree : Node}
    (read : reader.expression.1 = .ok tree ∨ reader.statement.1 = .ok tree) :
    tree.ControlsHeld := by
  rcases read with read | read
  · have done := (Outcome.result_eq_ok_iff reader.expression_ends).mp (Prod.ext read rfl)
    have found := Parse.finds_expression reader.fuel reader lexical
    rw [done] at found
    exact .of_runnable (.statement (.expression found.2.2))
  · have done := (Outcome.result_eq_ok_iff reader.statement_ends).mp (Prod.ext read rfl)
    have found := (Parse.statementSound reader.fuel).statement reader lexical
    rw [done, outside] at found
    exact .of_runnable (.statement found.2.2.1)

theorem statement_of_control (outside : reader.loops = 0) {word : Keyword}
    (control : word = .breakWord ∨ word = .continueWord)
    (inHand : reader.current.kind = .keyword word) :
    reader.statement = (.error (.controlOutsideLoop word reader.current.span), reader) := by
  have failed : ∀ node, Parse.loopControl word node reader =
      .failed (.controlOutsideLoop word reader.current.span) reader := by
    intro node
    rw [Parse.loopControl, Parse.inLoop_bind, outside]
    rfl
  refine (Outcome.result_eq_error_iff reader.statement_ends).mpr ?_
  show Parse.statement (8 * reader.left + 6 + 1) reader = _
  rw [Parse.statement, Parse.current_bind, inHand]
  rcases control with rfl | rfl <;> exact failed _

/-- However often reading has failed, and wherever in loops and functions, what is read next is read
outside of loops. -/
theorem next_is_outside_loops (resumed : Resumed source reader) :
    reader.loops = 0 ∧
    (∀ tree, reader.expression.1 = .ok tree ∨ reader.statement.1 = .ok tree →
      tree.ControlsHeld) ∧
    ∀ word, word = .breakWord ∨ word = .continueWord → reader.current.kind = .keyword word →
      reader.statement = (.error (.controlOutsideLoop word reader.current.span), reader) := by
  obtain ⟨lexical, outside⟩ := resumed.kept
  refine ⟨outside, fun tree => controlsHeld lexical outside, fun word => ?_⟩
  exact statement_of_control outside

/-- A `break` in hand after a failure in two loops and a function. -/
theorem break_after_failure :
    ∃ reader, Reader.start "while (a) fn f() \x7b while (b) let break".toList = .ok reader ∧
      reader.statement.2.statement =
        (.error (.controlOutsideLoop .breakWord ⟨33, 38⟩), reader.statement.2) := by
  have inHand : (Reader.start "while (a) fn f() \x7b while (b) let break".toList).toOption.map
      (fun reader => reader.statement.2.current) =
        some ⟨.keyword .breakWord, "break", ⟨33, 38⟩⟩ := by
    decide +kernel
  cases started : Reader.start "while (a) fn f() \x7b while (b) let break".toList with
  | error fault =>
    rw [started] at inHand
    cases inHand
  | ok reader =>
    rw [started] at inHand
    have current : reader.statement.2.current = _ := Option.some.inj inHand
    have closed := (next_is_outside_loops (.statement (.start started))).2.2 .breakWord (.inl rfl)
    rw [current] at closed
    exact ⟨reader, rfl, closed rfl⟩

end Resumed

end Reader

end Scriptlet
