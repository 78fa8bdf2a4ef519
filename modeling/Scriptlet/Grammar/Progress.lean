import Scriptlet.Grammar.Statement

/-! Reading comes to an end: with steps in proportion to the tokens left, nothing is cut off. -/

set_option autoImplicit false

namespace Scriptlet

namespace Parse

variable {α β : Type}

/-- From a reader, a part is not cut off and, if it succeeds, leaves fewer tokens than a bound. -/
def Ends (bound : Nat) (part : Parse α) (reader : Reader) : Prop :=
  match part reader with
  | .done _ after => after.left < bound
  | .failed _ _ => True
  | .cutOff => False

theorem Ends.ne_cutOff {bound : Nat} {part : Parse α} {reader : Reader}
    (ends : Ends bound part reader) : part reader ≠ .cutOff := by
  intro outcome
  unfold Ends at ends
  rw [outcome] at ends
  exact ends

theorem Ends.mono {bound wider : Nat} {part : Parse α} {reader : Reader}
    (ends : Ends bound part reader) (le : bound ≤ wider) : Ends wider part reader := by
  unfold Ends at ends ⊢
  split <;> simp_all only
  omega

theorem Ends.bind {middle bound : Nat} {first : Parse α} {next : α → Parse β} {reader : Reader}
    (ends : Ends middle first reader)
    (goesOn : ∀ value after, after.left < middle → Ends bound (next value) after) :
    Ends bound (first >>= next) reader := by
  unfold Ends at ends
  unfold Ends
  rw [Action.bind_apply]
  cases outcome : first reader with
  | done value after =>
    rw [outcome] at ends
    exact goesOn value after ends
  | failed error after => trivial
  | cutOff =>
    rw [outcome] at ends
    exact ends

theorem ends_pure {bound : Nat} {value : α} {reader : Reader} (less : reader.left < bound) :
    Ends bound (pure value) reader := less

theorem ends_fail {bound : Nat} {error : SyntaxError} {reader : Reader} :
    Ends bound (Action.fail error : Parse α) reader := trivial

theorem Ends.map {bound : Nat} {f : α → β} {part : Parse α} {reader : Reader}
    (ends : Ends bound part reader) : Ends bound (f <$> part) reader :=
  ends.bind fun _ _ less => less

theorem ends_current_bind {bound : Nat} {next : Token → Parse β} {reader : Reader} :
    Ends bound (current >>= next) reader ↔ Ends bound (next reader.current) reader := Iff.rfl

theorem ends_sees_bind {bound : Nat} {kind : Kind} {next : Bool → Parse β} {reader : Reader} :
    Ends bound (sees kind >>= next) reader ↔
      Ends bound (next (reader.current.kind == kind)) reader := Iff.rfl

theorem ends_inLoop_bind {bound : Nat} {next : Bool → Parse β} {reader : Reader} :
    Ends bound (inLoop >>= next) reader ↔ Ends bound (next (reader.loops != 0)) reader := Iff.rfl

theorem ends_advance_of_ne {reader : Reader} (kind : reader.current.kind ≠ .endOfInput) :
    Ends reader.left advance reader := by
  have left : reader.left = reader.rest.size + 1 := if_neg kind
  unfold Ends advance
  rw [if_neg kind, left]
  cases rest : reader.rest with
  | token next more =>
    simp only [Reader.left, Stream.size]
    split <;> omega
  | ending offset => simp [Reader.left, Token.ending]
  | fault error => trivial
  | exhausted => simp [Reader.left, Token.ending]

theorem ends_advance (reader : Reader) : Ends (reader.left + 1) advance reader := by
  by_cases kind : reader.current.kind = .endOfInput
  · simp [Ends, advance, kind]
  · exact (ends_advance_of_ne kind).mono (Nat.le_succ _)

theorem ends_expect (symbol : Mark) (expected : Expectation) (reader : Reader) :
    Ends reader.left (expect symbol expected) reader := by
  unfold expect
  rw [ends_sees_bind]
  split
  · exact ends_advance_of_ne (by simp_all)
  · rw [ends_current_bind]
    exact ends_fail

theorem ends_identifier (reader : Reader) : Ends reader.left identifier reader := by
  unfold identifier
  rw [ends_current_bind]
  split
  · exact (ends_advance_of_ne (by simp_all)).bind fun _ _ less => less
  · exact ends_fail

theorem ends_around {bound : Nat} {before after : Reader → Reader} {part : Parse α}
    {reader : Reader} (keeps : ∀ reader, (after reader).left = reader.left)
    (ends : Ends bound part (before reader)) :
    Ends bound (Action.around before after part) reader := by
  unfold Ends Action.around
  unfold Ends at ends
  cases outcome : part (before reader) with
  | done value reached =>
    rw [outcome] at ends
    simpa only [keeps] using ends
  | failed error reached => trivial
  | cutOff =>
    rw [outcome] at ends
    exact ends

theorem ends_assignment {bound : Nat} (target value : Node) {reader : Reader}
    (less : reader.left < bound) : Ends bound (assignment target value) reader := by
  unfold assignment
  split
  · exact less
  · exact ends_fail

/-- With so many steps each part of an expression is read to its end. -/
structure ExpressionEnds (fuel : Nat) : Prop where
  expression : ∀ reader, 8 * reader.left + 5 ≤ fuel → Ends reader.left (expression fuel) reader
  operation : ∀ least reader, 8 * reader.left + 4 ≤ fuel →
    Ends reader.left (operation fuel least) reader
  climb : ∀ least left reader, 8 * reader.left + 1 ≤ fuel →
    Ends (reader.left + 1) (climb fuel least left) reader
  unary : ∀ reader, 8 * reader.left + 3 ≤ fuel → Ends reader.left (unary fuel) reader
  call : ∀ reader, 8 * reader.left + 2 ≤ fuel → Ends reader.left (call fuel) reader
  calls : ∀ callee reader, 8 * reader.left + 1 ≤ fuel →
    Ends (reader.left + 1) (calls fuel callee) reader
  arguments : ∀ reader, 8 * reader.left + 7 ≤ fuel →
    Ends (reader.left + 1) (arguments fuel) reader
  someArguments : ∀ reader, 8 * reader.left + 6 ≤ fuel →
    Ends reader.left (someArguments fuel) reader
  primary : ∀ reader, 8 * reader.left + 1 ≤ fuel → Ends reader.left (primary fuel) reader

namespace ExpressionEnds

variable {fuel : Nat}

theorem expression_succ (ends : ExpressionEnds fuel) (reader : Reader)
    (enough : 8 * reader.left + 5 ≤ fuel + 1) :
    Ends reader.left (Parse.expression (fuel + 1)) reader := by
  unfold Parse.expression
  refine (ends.operation _ _ (by omega)).bind fun target after less => ?_
  rw [ends_sees_bind]
  split
  · refine (ends_advance after).bind fun _ after _ => ?_
    refine (ends.expression after (by omega)).bind fun value after _ => ?_
    exact ends_assignment _ _ (by omega)
  · exact less

theorem climb_succ (ends : ExpressionEnds fuel) (least : Nat) (left : Node) (reader : Reader)
    (enough : 8 * reader.left + 1 ≤ fuel + 1) :
    Ends (reader.left + 1) (Parse.climb (fuel + 1) least left) reader := by
  unfold Parse.climb
  rw [ends_current_bind]
  split
  · exact Nat.lt_succ_self _
  · rename_i known
    split
    · exact Nat.lt_succ_self _
    · have kind : reader.current.kind ≠ .endOfInput := by
        intro same
        simp [same, Operator.ofKind?] at known
      refine (ends_advance_of_ne kind).bind fun _ after _ => ?_
      refine (ends.operation _ _ (by omega)).bind fun right after _ => ?_
      exact (ends.climb _ _ _ (by omega)).mono (by omega)

theorem unary_succ (ends : ExpressionEnds fuel) (reader : Reader)
    (enough : 8 * reader.left + 3 ≤ fuel + 1) :
    Ends reader.left (Parse.unary (fuel + 1)) reader := by
  unfold Parse.unary
  rw [ends_current_bind]
  split
  · exact ends.call _ (by omega)
  · rename_i known
    have kind : reader.current.kind ≠ .endOfInput := by
      intro same
      simp [same, UnaryOp.ofKind?] at known
    refine (ends_advance_of_ne kind).bind fun _ after _ => ?_
    refine (ends.unary _ (by omega)).bind fun operand after _ => ?_
    exact ends_pure (by omega)

theorem calls_succ (ends : ExpressionEnds fuel) (callee : Node) (reader : Reader)
    (enough : 8 * reader.left + 1 ≤ fuel + 1) :
    Ends (reader.left + 1) (Parse.calls (fuel + 1) callee) reader := by
  unfold Parse.calls
  rw [ends_sees_bind]
  split
  · refine (ends_advance_of_ne (by simp_all)).bind fun _ after _ => ?_
    refine (ends.arguments _ (by omega)).bind fun found after _ => ?_
    refine (ends_expect _ _ _).bind fun closing after _ => ?_
    exact (ends.calls _ _ (by omega)).mono (by omega)
  · exact Nat.lt_succ_self _

theorem someArguments_succ (ends : ExpressionEnds fuel) (reader : Reader)
    (enough : 8 * reader.left + 6 ≤ fuel + 1) :
    Ends reader.left (Parse.someArguments (fuel + 1)) reader := by
  unfold Parse.someArguments
  refine (ends.expression _ (by omega)).bind fun first after less => ?_
  rw [ends_sees_bind]
  split
  · refine (ends_advance after).bind fun _ after _ => ?_
    refine (ends.someArguments _ (by omega)).bind fun rest after _ => ?_
    exact ends_pure (by omega)
  · exact less

theorem primary_succ (ends : ExpressionEnds fuel) (reader : Reader)
    (enough : 8 * reader.left + 1 ≤ fuel + 1) :
    Ends reader.left (Parse.primary (fuel + 1)) reader := by
  unfold Parse.primary
  rw [ends_current_bind]
  split
  · rename_i known
    have kind : reader.current.kind ≠ .endOfInput := by
      intro same
      simp [atom?, same] at known
    exact (ends_advance_of_ne kind).bind fun _ _ less => less
  · split
    · refine (ends_advance_of_ne (by simp_all)).bind fun _ after _ => ?_
      refine (ends.expression _ (by omega)).bind fun inner after _ => ?_
      refine (ends_expect _ _ _).bind fun closing after _ => ?_
      exact ends_pure (by omega)
    · exact ends_fail

end ExpressionEnds

theorem expressionEnds (fuel : Nat) : ExpressionEnds fuel := by
  induction fuel with
  | zero => constructor <;> intros <;> omega
  | succ fuel ih => exact {
      expression := ih.expression_succ
      operation least reader enough := by
        unfold Parse.operation
        refine (ih.unary reader (by omega)).bind fun left after less => ?_
        exact (ih.climb _ _ _ (by omega)).mono less
      climb := ih.climb_succ
      unary := ih.unary_succ
      call reader enough := by
        unfold Parse.call
        refine (ih.primary _ (by omega)).bind fun callee after less => ?_
        exact (ih.calls _ _ (by omega)).mono less
      calls := ih.calls_succ
      arguments reader enough := by
        unfold Parse.arguments
        rw [ends_sees_bind]
        split
        · exact Nat.lt_succ_self _
        · exact (ih.someArguments _ (by omega)).mono (Nat.le_succ _)
      someArguments := ih.someArguments_succ
      primary := ih.primary_succ }

theorem ends_expression {fuel : Nat} {reader : Reader} (enough : 8 * reader.left + 5 ≤ fuel) :
    Ends reader.left (expression fuel) reader :=
  (expressionEnds fuel).expression reader enough

theorem ends_declaration {fuel : Nat} {reader : Reader} (enough : 8 * reader.left + 5 ≤ fuel) :
    Ends reader.left (declaration fuel) reader := by
  unfold declaration
  refine (ends_advance reader).bind fun _ after _ => ?_
  refine (ends_identifier after).bind fun _ after _ => ?_
  refine (ends_expect _ _ after).bind fun _ after _ => ?_
  refine (ends_expression (by omega)).bind fun _ after _ => ?_
  refine (ends_expect _ _ after).bind fun _ after _ => ?_
  exact ends_pure (by omega)

theorem ends_someParameters {fuel : Nat} {reader : Reader} (enough : reader.left < fuel) :
    Ends reader.left (someParameters fuel) reader := by
  induction fuel generalizing reader with
  | zero => omega
  | succ fuel ih =>
    unfold someParameters
    refine (ends_identifier reader).bind fun _ after less => ?_
    rw [ends_sees_bind]
    split
    · refine (ends_advance after).bind fun _ after _ => ?_
      refine (ih (by omega)).bind fun _ after _ => ?_
      exact ends_pure (by omega)
    · exact less

theorem ends_parameters {fuel : Nat} {reader : Reader} (enough : reader.left < fuel) :
    Ends (reader.left + 1) (parameters fuel) reader := by
  unfold parameters
  rw [ends_sees_bind]
  split
  · exact Nat.lt_succ_self _
  · exact (ends_someParameters enough).mono (Nat.le_succ _)

theorem ends_condition {fuel : Nat} {reader : Reader} (word : Keyword)
    (enough : 8 * reader.left ≤ fuel) : Ends reader.left (condition fuel word) reader := by
  unfold condition
  refine (ends_expect _ _ reader).bind fun _ after _ => ?_
  refine (ends_expression (by omega)).bind fun _ after _ => ?_
  refine (ends_expect _ _ after).bind fun _ after _ => ?_
  exact ends_pure (by omega)

theorem ends_returned {fuel : Nat} {reader : Reader} (enough : 8 * reader.left + 5 ≤ fuel) :
    Ends (reader.left + 1) (returned fuel) reader := by
  unfold returned
  rw [ends_sees_bind]
  split
  · exact Nat.lt_succ_self _
  · exact (ends_expression enough).map.mono (Nat.le_succ _)

theorem ends_returning {fuel : Nat} {reader : Reader} (enough : 8 * reader.left + 5 ≤ fuel) :
    Ends reader.left (returning fuel) reader := by
  unfold returning
  refine (ends_advance reader).bind fun _ after _ => ?_
  refine (ends_returned (by omega)).bind fun _ after _ => ?_
  refine (ends_expect _ _ after).bind fun _ after _ => ?_
  exact ends_pure (by omega)

theorem ends_loopControl (word : Keyword) (node : Span → Node) (reader : Reader) :
    Ends reader.left (loopControl word node) reader := by
  unfold loopControl
  rw [ends_inLoop_bind]
  split
  · refine (ends_advance reader).bind fun _ after _ => ?_
    refine (ends_expect _ _ after).bind fun _ after _ => ?_
    exact ends_pure (by omega)
  · rw [ends_current_bind]
    exact ends_fail

theorem ends_expressionStatement {fuel : Nat} {reader : Reader}
    (enough : 8 * reader.left + 5 ≤ fuel) :
    Ends reader.left (expressionStatement fuel) reader := by
  unfold expressionStatement
  refine (ends_expression (by omega)).bind fun _ after less => ?_
  rw [ends_sees_bind]
  split
  · exact less
  · refine (ends_expect _ _ after).bind fun _ after _ => ?_
    exact ends_pure (by omega)

theorem ends_initializer {fuel : Nat} {reader : Reader} (enough : 8 * reader.left + 5 ≤ fuel) :
    Ends reader.left (initializer fuel) reader := by
  unfold initializer
  rw [ends_current_bind]
  split
  · exact (ends_advance_of_ne (by simp_all)).bind fun _ _ less => less
  · exact (ends_declaration enough).map
  · refine (ends_expression enough).bind fun _ after _ => ?_
    refine (ends_expect _ _ after).bind fun _ after _ => ?_
    exact ends_pure (by omega)

theorem ends_loopCondition {fuel : Nat} {reader : Reader} (enough : 8 * reader.left + 5 ≤ fuel) :
    Ends (reader.left + 1) (loopCondition fuel) reader := by
  unfold loopCondition
  rw [ends_current_bind]
  split
  · exact Nat.lt_succ_self _
  · exact (ends_expression enough).mono (Nat.le_succ _)

theorem ends_increment {fuel : Nat} {reader : Reader} (enough : 8 * reader.left + 5 ≤ fuel) :
    Ends (reader.left + 1) (increment fuel) reader := by
  unfold increment
  rw [ends_sees_bind]
  split
  · exact Nat.lt_succ_self _
  · exact (ends_expression enough).map.mono (Nat.le_succ _)

/-- With so many steps each statement is read to its end. -/
structure StatementEnds (fuel : Nat) : Prop where
  statement : ∀ reader, 8 * reader.left + 6 ≤ fuel → Ends reader.left (statement fuel) reader
  definition : ∀ reader, 8 * reader.left + 5 ≤ fuel → Ends reader.left (definition fuel) reader
  block : ∀ reader, 8 * reader.left + 1 ≤ fuel → Ends reader.left (block fuel) reader
  sequence : ∀ inBraces reader, 8 * reader.left + 7 ≤ fuel →
    Ends (reader.left + 1) (sequence fuel inBraces) reader
  branch : ∀ reader, 8 * reader.left + 5 ≤ fuel → Ends reader.left (branch fuel) reader
  whileLoop : ∀ reader, 8 * reader.left + 5 ≤ fuel → Ends reader.left (whileLoop fuel) reader
  forLoop : ∀ reader, 8 * reader.left + 5 ≤ fuel → Ends reader.left (forLoop fuel) reader

theorem left_loops (reader : Reader) (loops : Nat) :
    ({ reader with loops := loops } : Reader).left = reader.left := rfl

theorem StatementEnds.body {fuel : Nat} (ends : StatementEnds fuel) {reader : Reader}
    (enough : 8 * reader.left + 6 ≤ fuel) :
    Ends reader.left (insideLoop (Parse.statement fuel)) reader :=
  ends_around (fun reader => left_loops reader _)
    (ends.statement { reader with loops := reader.loops + 1 } enough)

namespace StatementEnds

variable {fuel : Nat}

theorem statement_succ (ends : StatementEnds fuel) (reader : Reader)
    (enough : 8 * reader.left + 6 ≤ fuel + 1) :
    Ends reader.left (Parse.statement (fuel + 1)) reader := by
  unfold Parse.statement
  rw [ends_current_bind]
  split
  · exact ends_declaration (by omega)
  · exact ends.definition _ (by omega)
  · exact ends.branch _ (by omega)
  · exact ends.whileLoop _ (by omega)
  · exact ends.forLoop _ (by omega)
  · exact ends_returning (by omega)
  · exact ends_loopControl _ _ _
  · exact ends_loopControl _ _ _
  · exact (ends.block _ (by omega)).bind fun _ _ less => less
  · exact ends_expressionStatement (by omega)

theorem definition_succ (ends : StatementEnds fuel) (reader : Reader)
    (enough : 8 * reader.left + 5 ≤ fuel + 1) :
    Ends reader.left (Parse.definition (fuel + 1)) reader := by
  unfold Parse.definition
  refine (ends_advance reader).bind fun _ after _ => ?_
  refine (ends_identifier after).bind fun _ after _ => ?_
  refine (ends_expect _ _ after).bind fun _ after _ => ?_
  refine (ends_parameters (by omega)).bind fun _ after _ => ?_
  refine (ends_expect _ _ after).bind fun _ after _ => ?_
  have body : Ends after.left (outsideLoops (Parse.block fuel)) after :=
    ends_around (fun reader => left_loops reader _)
      (ends.block { after with loops := 0 } (by rw [left_loops]; omega))
  refine body.bind fun _ after _ => ?_
  exact ends_pure (by omega)

theorem branch_succ (ends : StatementEnds fuel) (reader : Reader)
    (enough : 8 * reader.left + 5 ≤ fuel + 1) :
    Ends reader.left (Parse.branch (fuel + 1)) reader := by
  unfold Parse.branch
  refine (ends_advance reader).bind fun _ after _ => ?_
  refine (ends_condition _ (by omega)).bind fun _ after _ => ?_
  refine (ends.statement _ (by omega)).bind fun _ after less => ?_
  rw [ends_sees_bind]
  split
  · refine (ends_advance after).bind fun _ after _ => ?_
    refine (ends.statement _ (by omega)).bind fun _ after _ => ?_
    exact ends_pure (by omega)
  · exact ends_pure (by omega)

theorem forLoop_succ (ends : StatementEnds fuel) (reader : Reader)
    (enough : 8 * reader.left + 5 ≤ fuel + 1) :
    Ends reader.left (Parse.forLoop (fuel + 1)) reader := by
  unfold Parse.forLoop
  refine (ends_advance reader).bind fun _ after _ => ?_
  refine (ends_expect _ _ after).bind fun _ after _ => ?_
  refine (ends_initializer (by omega)).bind fun _ after _ => ?_
  refine (ends_loopCondition (by omega)).bind fun _ after _ => ?_
  refine (ends_expect _ _ after).bind fun _ after _ => ?_
  refine (ends_increment (by omega)).bind fun _ after _ => ?_
  refine (ends_expect _ _ after).bind fun _ after _ => ?_
  refine (ends.body (by omega)).bind fun _ after _ => ?_
  exact ends_pure (by omega)

end StatementEnds

theorem statementEnds (fuel : Nat) : StatementEnds fuel := by
  induction fuel with
  | zero => constructor <;> intros <;> omega
  | succ fuel ih => exact {
      statement := ih.statement_succ
      definition := ih.definition_succ
      block reader enough := by
        unfold Parse.block
        refine (ends_expect _ _ reader).bind fun _ after _ => ?_
        refine (ih.sequence _ _ (by omega)).bind fun _ after _ => ?_
        refine (ends_expect _ _ after).bind fun _ after _ => ?_
        exact ends_pure (by omega)
      sequence inBraces reader enough := by
        unfold Parse.sequence
        rw [ends_current_bind]
        split
        · exact Nat.lt_succ_self _
        · refine (ih.statement _ (by omega)).bind fun _ after _ => ?_
          refine (ih.sequence _ _ (by omega)).bind fun _ after _ => ?_
          exact ends_pure (by omega)
      branch := ih.branch_succ
      whileLoop reader enough := by
        unfold Parse.whileLoop
        refine (ends_advance reader).bind fun _ after _ => ?_
        refine (ends_condition _ (by omega)).bind fun _ after _ => ?_
        refine (ih.body (by omega)).bind fun _ after _ => ?_
        exact ends_pure (by omega)
      forLoop := ih.forLoop_succ }

theorem ends_wholeProgram {fuel : Nat} {reader : Reader} (enough : 8 * reader.left + 7 ≤ fuel) :
    Ends (reader.left + 1) (wholeProgram fuel) reader := by
  unfold wholeProgram
  refine ((statementEnds fuel).sequence _ _ enough).bind fun _ after less => ?_
  rw [ends_current_bind]
  exact ends_pure less

end Parse

end Scriptlet
