import Mathlib.Order.Hom.Basic
import Mathlib.Order.MinMax
import Scriptlet.Grammar.Program
import Scriptlet.Proofs.Contract
import Scriptlet.Proofs.Tree.Spans

/-! Reading does not depend on where in a source the tokens stand, nor on how far apart. However their
places are changed, as long as their order is kept, they are read to the same, with every place changed
as theirs are.
-/

set_option autoImplicit false

namespace Scriptlet

def Span.relocate (span : Span) (move : Nat →o Nat) : Span := ⟨move span.start, move span.stop⟩

def Token.relocate (token : Token) (move : Nat →o Nat) : Token :=
  { token with span := token.span.relocate move }

def LexError.relocate (error : LexError) (move : Nat →o Nat) : LexError :=
  { error with span := error.span.relocate move }

def Stream.relocate (move : Nat →o Nat) : Stream → Stream
  | token head rest => .token (head.relocate move) (rest.relocate move)
  | ending offset => .ending (move offset)
  | fault error => .fault (error.relocate move)
  | exhausted => .exhausted

def Node.relocate (node : Node) (move : Nat →o Nat) : Node := node.mapSpans (·.relocate move)

def SyntaxError.relocate (move : Nat →o Nat) : SyntaxError → SyntaxError
  | unexpectedToken expected found span => .unexpectedToken expected found (span.relocate move)
  | expectedExpression found span => .expectedExpression found (span.relocate move)
  | expectedIdentifier found span => .expectedIdentifier found (span.relocate move)
  | invalidTarget span => .invalidTarget (span.relocate move)
  | controlOutsideLoop word span => .controlOutsideLoop word (span.relocate move)
  | lexical error => .lexical (error.relocate move)

def Reader.relocate (reader : Reader) (move : Nat →o Nat) : Reader :=
  { reader with current := reader.current.relocate move, rest := reader.rest.relocate move }

theorem Token.kind_relocate (token : Token) (move : Nat →o Nat) :
    (token.relocate move).kind = token.kind := rfl

theorem Token.span_relocate (token : Token) (move : Nat →o Nat) :
    (token.relocate move).span = token.span.relocate move := rfl

theorem Span.merge_relocate (span other : Span) (move : Nat →o Nat) :
    (span.merge other).relocate move = (span.relocate move).merge (other.relocate move) := by
  simp only [merge, relocate, Span.mk.injEq]
  exact ⟨move.monotone.map_min, move.monotone.map_max⟩

namespace Node

variable (node : Node) (move : Nat →o Nat)

theorem span_relocate : (node.relocate move).span = node.span.relocate move := by
  cases node <;> rfl

theorem withSpan_relocate (span : Span) :
    (node.withSpan span).relocate move = (node.relocate move).withSpan (span.relocate move) := by
  cases node <;> rfl

end Node

theorem Operator.join_relocate (operator : Operator) (left right : Node) (move : Nat →o Nat) :
    (operator.join left right).relocate move =
      operator.join (left.relocate move) (right.relocate move) := by
  simp only [join, Node.span_relocate, ← Span.merge_relocate]
  cases operator <;> rfl

theorem Parse.atom?_relocate (token : Token) (move : Nat →o Nat) :
    atom? (token.relocate move) = (atom? token).map (·.relocate move) := by
  simp only [atom?, Token.relocate]
  split <;> simp_all <;> rfl

def Outcome.relocate {α β : Type} (move : Nat →o Nat) (change : α → β) :
    Outcome SyntaxError Reader α → Outcome SyntaxError Reader β
  | done value reader => .done (change value) (reader.relocate move)
  | failed error reader => .failed (error.relocate move) (reader.relocate move)
  | cutOff => .cutOff

namespace Parse

variable {α β γ δ : Type} {move : Nat →o Nat}

/-- A part does with places changed what the first one does, with values changed as they have to be,
unless one of the two is cut off. -/
def Relocates (move : Nat →o Nat) (change : α → β) (part : Parse α) (other : Parse β) : Prop :=
  ∀ reader : Reader, part reader ≠ .cutOff → other (reader.relocate move) ≠ .cutOff →
    other (reader.relocate move) = (part reader).relocate move change

section Rules

variable {change : α → β} {later : γ → δ}

theorem Relocates.bind {first : Parse α} {other : Parse β} {next : α → Parse γ} {after : β → Parse δ}
    (relocates : Relocates move change first other)
    (goesOn : ∀ value, Relocates move later (next value) (after (change value))) :
    Relocates move later (first >>= next) (other >>= after) := by
  intro reader ends endsOther
  have firstEnds := Action.ne_cutOff_of_bind ends
  have same := relocates reader firstEnds (Action.ne_cutOff_of_bind endsOther)
  rw [Action.bind_apply] at ends endsOther ⊢
  rw [Action.bind_apply]
  rw [same] at endsOther ⊢
  cases outcome : first reader with
  | done value reached =>
    rw [outcome] at ends endsOther
    exact goesOn value reached ends endsOther
  | failed => rfl
  | cutOff => exact absurd outcome firstEnds

theorem relocates_of_eq {part : Parse α} {other : Parse β}
    (same : ∀ reader : Reader, other (reader.relocate move) = (part reader).relocate move change) :
    Relocates move change part other := fun reader _ _ => same reader

theorem relocates_pure (value : α) : Relocates move change (pure value) (pure (change value)) :=
  relocates_of_eq fun _ => rfl

theorem relocates_fail (error : SyntaxError) :
    Relocates move change (Action.fail error) (Action.fail (error.relocate move)) :=
  relocates_of_eq fun _ => rfl

theorem relocates_cutOff {other : Parse β} : Relocates move change Action.cutOff other :=
  fun _ ends => absurd rfl ends

theorem relocates_cutOff_right {part : Parse α} : Relocates move change part Action.cutOff :=
  fun _ _ ends => absurd rfl ends

theorem relocates_current_bind {next : Token → Parse γ} {after : Token → Parse δ}
    (goesOn : ∀ token, Relocates move later (next token) (after (token.relocate move))) :
    Relocates move later (current >>= next) (current >>= after) :=
  fun reader => goesOn reader.current reader

theorem relocates_sees_bind {kind : Kind} {next : Bool → Parse γ} {after : Bool → Parse δ}
    (goesOn : ∀ seen, Relocates move later (next seen) (after seen)) :
    Relocates move later (sees kind >>= next) (sees kind >>= after) :=
  fun reader => goesOn _ reader

theorem relocates_inLoop_bind {next : Bool → Parse γ} {after : Bool → Parse δ}
    (goesOn : ∀ seen, Relocates move later (next seen) (after seen)) :
    Relocates move later (inLoop >>= next) (inLoop >>= after) :=
  fun reader => goesOn _ reader

theorem relocates_advance : Relocates move (Token.relocate · move) advance advance := by
  refine relocates_of_eq fun reader => ?_
  unfold advance
  by_cases ends : reader.current.kind = .endOfInput
  · rw [if_pos ends, if_pos (show (reader.relocate move).current.kind = .endOfInput from ends)]
    rfl
  · rw [if_neg ends, if_neg (show (reader.relocate move).current.kind ≠ .endOfInput from ends)]
    obtain ⟨current, rest, loops⟩ := reader
    cases rest <;> rfl

theorem relocates_expect (symbol : Mark) (expected : Expectation) :
    Relocates move (Token.relocate · move) (expect symbol expected) (expect symbol expected) := by
  refine relocates_sees_bind fun seen => ?_
  split
  · exact relocates_advance
  · exact relocates_current_bind fun token => relocates_fail _

theorem relocates_identifier : Relocates move id identifier identifier := by
  refine relocates_current_bind fun token => ?_
  obtain ⟨kind, lexeme, span⟩ := token
  cases kind with
  | identifier name => exact relocates_advance.bind fun _ => relocates_pure _
  | _ => exact relocates_fail _

theorem relocates_around {before after : Reader → Reader} {part : Parse α} {other : Parse β}
    (relocates : Relocates move change part other)
    (first : ∀ reader, before (reader.relocate move) = (before reader).relocate move)
    (last : ∀ reader, after (reader.relocate move) = (after reader).relocate move) :
    Relocates move change (Action.around before after part) (Action.around before after other) := by
  intro reader ends endsOther
  unfold Action.around at ends endsOther ⊢
  rw [first] at endsOther ⊢
  have partEnds : part (before reader) ≠ .cutOff := by
    intro cut
    rw [cut] at ends
    exact ends rfl
  have otherEnds : other ((before reader).relocate move) ≠ .cutOff := by
    intro cut
    rw [cut] at endsOther
    exact endsOther rfl
  rw [relocates _ partEnds otherEnds]
  cases part (before reader) with
  | done value reached => exact congrArg (Outcome.done _) (last reached)
  | failed error reached => exact congrArg (Outcome.failed _) (last reached)
  | cutOff => rfl

end Rules

/-! Expressions -/

theorem relocates_assignment (target value : Node) :
    Relocates move (Node.relocate · move) (assignment target value)
      (assignment (target.relocate move) (value.relocate move)) := by
  cases target with
  | reference span name =>
    refine relocates_of_eq fun reader => congrArg (Outcome.done · _) ?_
    rw [Node.span_relocate, ← Span.merge_relocate]
    rfl
  | _ => exact relocates_fail _

structure ExpressionRelocates (move : Nat →o Nat) (fuel more : Nat) : Prop where
  expression : Relocates move (Node.relocate · move) (expression fuel) (expression more)
  operation : ∀ least,
    Relocates move (Node.relocate · move) (operation fuel least) (operation more least)
  climb : ∀ least left, Relocates move (Node.relocate · move) (climb fuel least left)
    (climb more least (left.relocate move))
  unary : Relocates move (Node.relocate · move) (unary fuel) (unary more)
  call : Relocates move (Node.relocate · move) (call fuel) (call more)
  calls : ∀ callee, Relocates move (Node.relocate · move) (calls fuel callee)
    (calls more (callee.relocate move))
  arguments : Relocates move (List.map (Node.relocate · move)) (arguments fuel) (arguments more)
  someArguments :
    Relocates move (List.map (Node.relocate · move)) (someArguments fuel) (someArguments more)
  primary : Relocates move (Node.relocate · move) (primary fuel) (primary more)

namespace ExpressionRelocates

variable {fuel more : Nat}

theorem expression_succ (goesAlong : ExpressionRelocates move fuel more) :
    Relocates move (Node.relocate · move) (Parse.expression (fuel + 1))
      (Parse.expression (more + 1)) := by
  unfold Parse.expression
  refine (goesAlong.operation _).bind fun target => relocates_sees_bind fun seen => ?_
  split
  · refine relocates_advance.bind fun _ => ?_
    exact goesAlong.expression.bind fun value => relocates_assignment target value
  · exact relocates_pure target

theorem climb_succ (goesAlong : ExpressionRelocates move fuel more) (least : Nat) (left : Node) :
    Relocates move (Node.relocate · move) (Parse.climb (fuel + 1) least left)
      (Parse.climb (more + 1) least (left.relocate move)) := by
  unfold Parse.climb
  refine relocates_current_bind fun token => ?_
  rw [Token.kind_relocate]
  split
  · exact relocates_pure left
  · next operator _ =>
    split
    · exact relocates_pure left
    · refine relocates_advance.bind fun _ => (goesAlong.operation _).bind fun right => ?_
      rw [← Operator.join_relocate]
      exact goesAlong.climb least _

theorem unary_succ (goesAlong : ExpressionRelocates move fuel more) :
    Relocates move (Node.relocate · move) (Parse.unary (fuel + 1)) (Parse.unary (more + 1)) := by
  unfold Parse.unary
  refine relocates_current_bind fun token => ?_
  rw [Token.kind_relocate]
  split
  · exact goesAlong.call
  · next op _ =>
    refine relocates_advance.bind fun sign => goesAlong.unary.bind fun operand => ?_
    rw [Node.span_relocate, Token.span_relocate, ← Span.merge_relocate]
    exact relocates_pure (Node.unary _ op operand)

theorem calls_succ (goesAlong : ExpressionRelocates move fuel more) (callee : Node) :
    Relocates move (Node.relocate · move) (Parse.calls (fuel + 1) callee)
      (Parse.calls (more + 1) (callee.relocate move)) := by
  unfold Parse.calls
  refine relocates_sees_bind fun seen => ?_
  split
  · refine relocates_advance.bind fun _ => goesAlong.arguments.bind fun found => ?_
    refine (relocates_expect _ _).bind fun closing => ?_
    have relocates := goesAlong.calls (.call (callee.span.merge closing.span) callee found)
    rw [Node.relocate, Node.mapSpans, Node.mapSpansEach_eq_map, Span.merge_relocate,
      ← Node.span_relocate] at relocates
    exact relocates
  · exact relocates_pure callee

theorem primary_succ (goesAlong : ExpressionRelocates move fuel more) :
    Relocates move (Node.relocate · move) (Parse.primary (fuel + 1)) (Parse.primary (more + 1)) := by
  unfold Parse.primary
  refine relocates_current_bind fun token => ?_
  rw [atom?_relocate, Token.kind_relocate]
  cases atom? token with
  | some node => exact relocates_advance.bind fun _ => relocates_pure node
  | none =>
    dsimp only [Option.map_none]
    split
    · refine relocates_advance.bind fun opening => goesAlong.expression.bind fun inner => ?_
      refine (relocates_expect _ _).bind fun closing => ?_
      have relocates : Relocates move (Node.relocate · move) _ _ :=
        relocates_pure (inner.withSpan (opening.span.merge closing.span))
      rw [Node.withSpan_relocate, Span.merge_relocate] at relocates
      exact relocates
    · exact relocates_fail _

end ExpressionRelocates

theorem expressionRelocates (move : Nat →o Nat) (fuel more : Nat) : ExpressionRelocates move fuel more := by
  induction fuel generalizing more with
  | zero => constructor <;> intros <;> exact relocates_cutOff
  | succ fuel ih =>
    -- the second part may be the one that is cut off
    obtain _ | more := more
    · constructor <;> intros <;> exact relocates_cutOff_right
    specialize ih more
    exact {
      expression := ih.expression_succ
      operation least := by
        unfold Parse.operation
        exact ih.unary.bind fun left => ih.climb least left
      climb := ih.climb_succ
      unary := ih.unary_succ
      call := by
        unfold Parse.call
        exact ih.primary.bind fun callee => ih.calls callee
      calls := ih.calls_succ
      arguments := by
        unfold Parse.arguments
        refine relocates_sees_bind fun seen => ?_
        split
        · exact relocates_pure []
        · exact ih.someArguments
      someArguments := by
        unfold Parse.someArguments
        refine ih.expression.bind fun first => relocates_sees_bind fun seen => ?_
        split
        · refine relocates_advance.bind fun _ => ih.someArguments.bind fun rest => ?_
          exact relocates_pure (first :: rest)
        · exact relocates_pure [first]
      primary := ih.primary_succ }

theorem relocates_expression (move : Nat →o Nat) (fuel more : Nat) :
    Relocates move (Node.relocate · move) (expression fuel) (expression more) :=
  (expressionRelocates move fuel more).expression

/-! Statements -/

theorem relocates_declaration (fuel more : Nat) :
    Relocates move (Node.relocate · move) (declaration fuel) (declaration more) := by
  unfold declaration
  refine relocates_advance.bind fun word => relocates_identifier.bind fun name => ?_
  refine (relocates_expect _ _).bind fun _ => (relocates_expression _ fuel more).bind fun value => ?_
  refine (relocates_expect _ _).bind fun semicolon => ?_
  rw [Token.span_relocate, Token.span_relocate, ← Span.merge_relocate]
  exact relocates_pure (Node.declare _ name value)

theorem relocates_someParameters (fuel more : Nat) :
    Relocates move id (someParameters fuel) (someParameters more) := by
  induction fuel generalizing more with
  | zero => exact relocates_cutOff
  | succ fuel ih =>
    obtain _ | more := more
    · exact relocates_cutOff_right
    unfold someParameters
    refine relocates_identifier.bind fun first => relocates_sees_bind fun seen => ?_
    split
    · exact relocates_advance.bind fun _ => (ih more).bind fun rest => relocates_pure _
    · exact relocates_pure _

theorem relocates_parameters (fuel more : Nat) :
    Relocates move id (parameters fuel) (parameters more) := by
  refine relocates_sees_bind fun seen => ?_
  split
  · exact relocates_pure _
  · exact relocates_someParameters fuel more

theorem relocates_condition (fuel more : Nat) (word : Keyword) :
    Relocates move (Node.relocate · move) (condition fuel word) (condition more word) := by
  refine (relocates_expect _ _).bind fun _ => (relocates_expression _ fuel more).bind fun node => ?_
  exact (relocates_expect _ _).bind fun _ => relocates_pure node

theorem relocates_someExpression (fuel more : Nat) :
    Relocates move (Option.map (Node.relocate · move)) (some <$> expression fuel)
      (some <$> expression more) :=
  (relocates_expression _ fuel more).bind fun node => relocates_pure (some node)

theorem relocates_returned (fuel more : Nat) :
    Relocates move (Option.map (Node.relocate · move)) (returned fuel) (returned more) := by
  refine relocates_sees_bind fun seen => ?_
  split
  · exact relocates_pure none
  · exact relocates_someExpression fuel more

theorem relocates_increment (fuel more : Nat) :
    Relocates move (Option.map (Node.relocate · move)) (increment fuel) (increment more) := by
  refine relocates_sees_bind fun seen => ?_
  split
  · exact relocates_pure none
  · exact relocates_someExpression fuel more

theorem relocates_returning (fuel more : Nat) :
    Relocates move (Node.relocate · move) (returning fuel) (returning more) := by
  unfold returning
  refine relocates_advance.bind fun word => (relocates_returned fuel more).bind fun value => ?_
  refine (relocates_expect _ _).bind fun semicolon => ?_
  have relocates : Relocates move (Node.relocate · move) _ _ :=
    relocates_pure (Node.return (word.span.merge semicolon.span) value)
  rw [Node.relocate, Node.mapSpans, Node.mapSpansIfAny_eq_map, Span.merge_relocate] at relocates
  exact relocates

theorem relocates_loopControl {word : Keyword} {node : Span → Node}
    (places : ∀ span, (node span).relocate move = node (span.relocate move)) :
    Relocates move (Node.relocate · move) (loopControl word node) (loopControl word node) := by
  refine relocates_inLoop_bind fun inside => ?_
  split
  · refine relocates_advance.bind fun found => (relocates_expect _ _).bind fun semicolon => ?_
    rw [Token.span_relocate, Token.span_relocate, ← Span.merge_relocate, ← places]
    exact relocates_pure _
  · exact relocates_current_bind fun _ => relocates_fail _

theorem relocates_expressionStatement (fuel more : Nat) :
    Relocates move (Node.relocate · move) (expressionStatement fuel)
      (expressionStatement more) := by
  refine (relocates_expression _ fuel more).bind fun node => relocates_sees_bind fun seen => ?_
  split
  · exact relocates_pure node
  · exact (relocates_expect _ _).bind fun _ => relocates_pure node

theorem relocates_initializer (fuel more : Nat) :
    Relocates move (Option.map (Node.relocate · move)) (initializer fuel) (initializer more) := by
  refine relocates_current_bind fun token => ?_
  rw [Token.kind_relocate]
  split
  · exact relocates_advance.bind fun _ => relocates_pure none
  · exact (relocates_declaration fuel more).bind fun node => relocates_pure (some node)
  · refine (relocates_expression _ fuel more).bind fun node => ?_
    exact (relocates_expect _ _).bind fun _ => relocates_pure (some node)

theorem relocates_loopCondition (fuel more : Nat) :
    Relocates move (Node.relocate · move) (loopCondition fuel) (loopCondition more) := by
  refine relocates_current_bind fun token => ?_
  rw [Token.kind_relocate]
  split
  · exact relocates_pure (Node.boolean (Span.point token.span.start) true)
  · exact relocates_expression _ fuel more

structure StatementRelocates (move : Nat →o Nat) (fuel more : Nat) : Prop where
  statement : Relocates move (Node.relocate · move) (statement fuel) (statement more)
  definition : Relocates move (Node.relocate · move) (definition fuel) (definition more)
  block : Relocates move (fun found : List Node × Span =>
    (found.1.map (Node.relocate · move), found.2.relocate move)) (block fuel) (block more)
  sequence : ∀ inBraces, Relocates move (List.map (Node.relocate · move)) (sequence fuel inBraces)
    (sequence more inBraces)
  branch : Relocates move (Node.relocate · move) (branch fuel) (branch more)
  whileLoop : Relocates move (Node.relocate · move) (whileLoop fuel) (whileLoop more)
  forLoop : Relocates move (Node.relocate · move) (forLoop fuel) (forLoop more)

theorem relocates_insideLoop {part other : Parse Node}
    (relocates : Relocates move (Node.relocate · move) part other) :
    Relocates move (Node.relocate · move) (insideLoop part) (insideLoop other) :=
  relocates_around relocates (fun _ => rfl) fun _ => rfl

namespace StatementRelocates

variable {fuel more : Nat}

theorem statement_succ (goesAlong : StatementRelocates move fuel more) :
    Relocates move (Node.relocate · move) (Parse.statement (fuel + 1))
      (Parse.statement (more + 1)) := by
  unfold Parse.statement
  refine relocates_current_bind fun token => ?_
  rw [Token.kind_relocate]
  split
  · exact relocates_declaration fuel more
  · exact goesAlong.definition
  · exact goesAlong.branch
  · exact goesAlong.whileLoop
  · exact goesAlong.forLoop
  · exact relocates_returning fuel more
  · exact relocates_loopControl fun _ => rfl
  · exact relocates_loopControl fun _ => rfl
  · refine goesAlong.block.bind fun found => ?_
    have relocates : Relocates move (Node.relocate · move) _ _ :=
      relocates_pure (Node.block found.2 found.1)
    rw [Node.relocate, Node.mapSpans, Node.mapSpansEach_eq_map] at relocates
    exact relocates
  · exact relocates_expressionStatement fuel more

theorem definition_succ (goesAlong : StatementRelocates move fuel more) :
    Relocates move (Node.relocate · move) (Parse.definition (fuel + 1))
      (Parse.definition (more + 1)) := by
  unfold Parse.definition
  refine relocates_advance.bind fun word => relocates_identifier.bind fun name => ?_
  refine (relocates_expect _ _).bind fun _ => (relocates_parameters fuel more).bind fun names => ?_
  refine (relocates_expect _ _).bind fun _ => ?_
  have body : Relocates move _ (outsideLoops (Parse.block fuel)) (outsideLoops (Parse.block more)) :=
    fun reader => relocates_around goesAlong.block (fun _ => rfl) (fun _ => rfl) reader
  refine body.bind fun found => ?_
  have relocates : Relocates move (Node.relocate · move) _ _ :=
    relocates_pure (Node.function (word.span.merge found.2) name names found.1)
  rw [Node.relocate, Node.mapSpans, Node.mapSpansEach_eq_map, Span.merge_relocate] at relocates
  exact relocates

theorem branch_succ (goesAlong : StatementRelocates move fuel more) :
    Relocates move (Node.relocate · move) (Parse.branch (fuel + 1)) (Parse.branch (more + 1)) := by
  unfold Parse.branch
  refine relocates_advance.bind fun word => (relocates_condition fuel more _).bind fun test => ?_
  refine goesAlong.statement.bind fun thenBranch => relocates_sees_bind fun seen => ?_
  split
  · refine relocates_advance.bind fun _ => goesAlong.statement.bind fun elseBranch => ?_
    rw [Node.span_relocate, Token.span_relocate, ← Span.merge_relocate]
    exact relocates_pure (Node.branch _ test thenBranch (some elseBranch))
  · rw [Node.span_relocate, Token.span_relocate, ← Span.merge_relocate]
    exact relocates_pure (Node.branch _ test thenBranch none)

theorem forLoop_succ (goesAlong : StatementRelocates move fuel more) :
    Relocates move (Node.relocate · move) (Parse.forLoop (fuel + 1)) (Parse.forLoop (more + 1)) := by
  unfold Parse.forLoop
  refine relocates_advance.bind fun word => (relocates_expect _ _).bind fun _ => ?_
  refine (relocates_initializer fuel more).bind fun first => (relocates_loopCondition fuel more).bind fun test => ?_
  refine (relocates_expect _ _).bind fun _ => (relocates_increment fuel more).bind fun step => ?_
  refine (relocates_expect _ _).bind fun _ => (relocates_insideLoop goesAlong.statement).bind fun body => ?_
  rw [Node.span_relocate, Token.span_relocate, ← Span.merge_relocate]
  -- with each clause there or not, the spans are those of its node
  cases first <;> cases step <;> exact relocates_pure _

end StatementRelocates

theorem statementRelocates (move : Nat →o Nat) (fuel more : Nat) : StatementRelocates move fuel more := by
  induction fuel generalizing more with
  | zero => constructor <;> intros <;> exact relocates_cutOff
  | succ fuel ih =>
    obtain _ | more := more
    · constructor <;> intros <;> exact relocates_cutOff_right
    specialize ih more
    exact {
      statement := ih.statement_succ
      definition := ih.definition_succ
      block := by
        unfold Parse.block
        refine (relocates_expect _ _).bind fun opening => (ih.sequence true).bind fun statements => ?_
        refine (relocates_expect _ _).bind fun closing => ?_
        rw [Token.span_relocate, Token.span_relocate, ← Span.merge_relocate]
        exact relocates_pure (statements, opening.span.merge closing.span)
      sequence inBraces := by
        unfold Parse.sequence
        refine relocates_current_bind fun token => ?_
        rw [Token.kind_relocate]
        split
        · exact relocates_pure []
        · refine ih.statement.bind fun first => (ih.sequence inBraces).bind fun rest => ?_
          exact relocates_pure (first :: rest)
      branch := ih.branch_succ
      whileLoop := by
        unfold Parse.whileLoop
        refine relocates_advance.bind fun word => (relocates_condition fuel more _).bind fun test => ?_
        refine (relocates_insideLoop ih.statement).bind fun body => ?_
        rw [Node.span_relocate, Token.span_relocate, ← Span.merge_relocate]
        exact relocates_pure (Node.loop _ test body none)
      forLoop := ih.forLoop_succ }

/-- A program starts at the start of its source, which has to stay where it is. -/
theorem relocates_wholeProgram (fixed : move 0 = 0) (fuel more : Nat) :
    Relocates move (Node.relocate · move) (wholeProgram fuel) (wholeProgram more) := by
  refine ((statementRelocates move fuel more).sequence false).bind fun statements => ?_
  refine relocates_current_bind fun last => ?_
  have relocates : Relocates move (Node.relocate · move) _ _ :=
    relocates_pure (Node.program ⟨0, last.span.stop⟩ statements)
  rw [Node.relocate, Node.mapSpans, Node.mapSpansEach_eq_map, Span.relocate, fixed] at relocates
  exact relocates

end Parse

end Scriptlet
