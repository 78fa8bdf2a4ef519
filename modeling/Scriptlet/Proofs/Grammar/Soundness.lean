import Scriptlet.Grammar.Program
import Scriptlet.Proofs.Contract
import Scriptlet.Proofs.Grammar.Passes
import Scriptlet.Proofs.Token.Lexical

/-! Whatever is read is well-formed. -/

set_option autoImplicit false

namespace Scriptlet.Parse

open WellFormed

variable {α β : Type}

/-- From tokens that a source can hold, a part that succeeds leaves such tokens, is in as many loops
as before, and meets a condition. -/
def Finds (good : α → Reader → Prop) (part : Parse α) (reader : Reader) : Prop :=
  reader.Lexical → (part reader).Meets
    (fun value after => after.Lexical ∧ after.loops = reader.loops ∧ good value after)
    fun _ _ => True

theorem Finds.bind {middle : α → Reader → Prop} {good : β → Reader → Prop} {first : Parse α}
    {next : α → Parse β} {reader : Reader} (finds : Finds middle first reader)
    (goesOn : ∀ value after, after.loops = reader.loops → middle value after →
      Finds good (next value) after) : Finds good (first >>= next) reader := by
  intro lexical
  refine Action.meets_bind (finds lexical) fun value after found => ?_
  obtain ⟨lexicalAfter, loops, holds⟩ := found
  -- the second part leaves as many loops as the first, which left as many as there were
  refine (goesOn value after loops holds lexicalAfter).imp fun found last reached => ?_
  rw [← loops]
  exact reached

theorem Finds.imp {good better : α → Reader → Prop} {part : Parse α} {reader : Reader}
    (finds : Finds good part reader)
    (implies : ∀ value after, good value after → better value after) :
    Finds better part reader := by
  intro lexical
  refine (finds lexical).imp fun value after found => ?_
  obtain ⟨lexicalAfter, loops, holds⟩ := found
  exact ⟨lexicalAfter, loops, implies value after holds⟩

theorem finds_pure {good : α → Reader → Prop} {value : α} {reader : Reader}
    (holds : good value reader) : Finds good (pure value) reader :=
  fun lexical => ⟨lexical, rfl, holds⟩

theorem finds_fail {good : α → Reader → Prop} {error : SyntaxError} {reader : Reader} :
    Finds good (Action.fail error) reader := fun _ => trivial

theorem finds_cutOff {good : α → Reader → Prop} {reader : Reader} :
    Finds good Action.cutOff reader := fun _ => trivial

theorem finds_current_bind {good : β → Reader → Prop} {next : Token → Parse β} {reader : Reader}
    (goesOn : reader.current.kind.Lexical → Finds good (next reader.current) reader) :
    Finds good (current >>= next) reader := fun lexical => goesOn lexical.1 lexical

theorem finds_sees_bind {good : β → Reader → Prop} {kind : Kind} {next : Bool → Parse β}
    {reader : Reader} :
    Finds good (sees kind >>= next) reader ↔
      Finds good (next (reader.current.kind == kind)) reader := Iff.rfl

theorem finds_advance (reader : Reader) : Finds (fun _ _ => True) advance reader := by
  intro lexical
  cases given : advance reader with
  | done token after => exact ⟨lexical_advance lexical given, loops_of_advance given, trivial⟩
  | failed error after => trivial
  | cutOff => trivial

theorem finds_expect (symbol : Mark) (expected : Expectation) (reader : Reader) :
    Finds (fun _ _ => True) (expect symbol expected) reader := by
  unfold expect
  rw [finds_sees_bind]
  split
  · exact finds_advance reader
  · exact finds_current_bind fun _ => finds_fail

theorem finds_identifier (reader : Reader) :
    Finds (fun name _ => IsName name) identifier reader := by
  unfold identifier
  refine finds_current_bind fun lexical => ?_
  split
  · next name kind =>
    rw [kind] at lexical
    exact (finds_advance reader).bind fun _ _ _ _ => finds_pure lexical
  · exact finds_fail

theorem finds_around {good middle : α → Reader → Prop} {before after : Reader → Reader}
    {part : Parse α} {reader : Reader}
    (lexicalBefore : ∀ reader, Reader.Lexical reader → (before reader).Lexical)
    (lexicalAfter : ∀ reader, Reader.Lexical reader → (after reader).Lexical)
    (restores : ∀ reached : Reader, reached.loops = (before reader).loops →
      (after reached).loops = reader.loops)
    (finds : Finds middle part (before reader))
    (implies : ∀ value reached, middle value reached → good value (after reached)) :
    Finds good (Action.around before after part) reader := by
  intro lexical
  refine Action.meets_around ((finds (lexicalBefore reader lexical)).imp ?_)
  rintro value reached ⟨lexicalReached, loops, holds⟩
  exact ⟨lexicalAfter reached lexicalReached, restores reached loops, implies value reached holds⟩

/-! Expressions -/

theorem join_sound {operator : Operator} {left right : Node} (soundLeft : Expression left)
    (soundRight : Expression right) : Expression (operator.join left right) := by
  cases operator with
  | binary op => exact .binary soundLeft soundRight
  | logical op => exact .logical soundLeft soundRight

theorem atom?_sound {token : Token} {node : Node} (lexical : token.kind.Lexical)
    (known : atom? token = some node) : Expression node := by
  unfold atom? at known
  split at known
  · next kind =>
    rw [kind] at lexical
    cases known
    exact .number lexical
  · cases known
    exact .string
  · cases known
    exact .boolean
  · cases known
    exact .boolean
  · cases known
    exact .nil
  · next kind =>
    rw [kind] at lexical
    cases known
    exact .reference lexical
  · cases known

theorem finds_assignment {target value : Node} (soundTarget : Expression target)
    (sound : Expression value) (reader : Reader) :
    Finds (fun node _ => Expression node) (assignment target value) reader := by
  unfold assignment
  split
  · cases soundTarget with
    | reference name => exact finds_pure (.assign name sound)
  · exact finds_fail

structure ExpressionSound (fuel : Nat) : Prop where
  expression : ∀ reader, Finds (fun node _ => Expression node) (expression fuel) reader
  operation : ∀ least reader, Finds (fun node _ => Expression node) (operation fuel least) reader
  climb : ∀ least left reader, Expression left →
    Finds (fun node _ => Expression node) (climb fuel least left) reader
  unary : ∀ reader, Finds (fun node _ => Expression node) (unary fuel) reader
  call : ∀ reader, Finds (fun node _ => Expression node) (call fuel) reader
  calls : ∀ callee reader, Expression callee →
    Finds (fun node _ => Expression node) (calls fuel callee) reader
  arguments : ∀ reader,
    Finds (fun nodes _ => ∀ node ∈ nodes, Expression node) (arguments fuel) reader
  someArguments : ∀ reader,
    Finds (fun nodes _ => ∀ node ∈ nodes, Expression node) (someArguments fuel) reader
  primary : ∀ reader, Finds (fun node _ => Expression node) (primary fuel) reader

namespace ExpressionSound

variable {fuel : Nat}

theorem expression_succ (sound : ExpressionSound fuel) (reader : Reader) :
    Finds (fun node _ => Expression node) (Parse.expression (fuel + 1)) reader := by
  unfold Parse.expression
  refine (sound.operation _ reader).bind fun target after _ soundTarget => ?_
  rw [finds_sees_bind]
  split
  · refine (finds_advance after).bind fun _ after _ _ => ?_
    refine (sound.expression after).bind fun value after _ soundValue => ?_
    exact finds_assignment soundTarget soundValue after
  · exact finds_pure soundTarget

theorem climb_succ (sound : ExpressionSound fuel) (least : Nat) {left : Node} (reader : Reader)
    (soundLeft : Expression left) :
    Finds (fun node _ => Expression node) (Parse.climb (fuel + 1) least left) reader := by
  unfold Parse.climb
  refine finds_current_bind fun _ => ?_
  split
  · exact finds_pure soundLeft
  · split
    · exact finds_pure soundLeft
    · refine (finds_advance reader).bind fun _ after _ _ => ?_
      refine (sound.operation _ after).bind fun right after _ soundRight => ?_
      exact sound.climb least _ after (join_sound soundLeft soundRight)

theorem unary_succ (sound : ExpressionSound fuel) (reader : Reader) :
    Finds (fun node _ => Expression node) (Parse.unary (fuel + 1)) reader := by
  unfold Parse.unary
  refine finds_current_bind fun _ => ?_
  split
  · exact sound.call reader
  · refine (finds_advance reader).bind fun _ after _ _ => ?_
    exact (sound.unary after).bind fun operand _ _ isSound => finds_pure (.unary isSound)

theorem calls_succ (sound : ExpressionSound fuel) {callee : Node} (reader : Reader)
    (soundCallee : Expression callee) :
    Finds (fun node _ => Expression node) (Parse.calls (fuel + 1) callee) reader := by
  unfold Parse.calls
  rw [finds_sees_bind]
  split
  · refine (finds_advance reader).bind fun _ after _ _ => ?_
    refine (sound.arguments after).bind fun found after _ soundArguments => ?_
    refine (finds_expect _ _ after).bind fun _ after _ _ => ?_
    exact sound.calls _ after (.call soundCallee soundArguments)
  · exact finds_pure soundCallee

theorem someArguments_succ (sound : ExpressionSound fuel) (reader : Reader) :
    Finds (fun nodes _ => ∀ node ∈ nodes, Expression node) (Parse.someArguments (fuel + 1))
      reader := by
  unfold Parse.someArguments
  refine (sound.expression reader).bind fun first after _ soundFirst => ?_
  rw [finds_sees_bind]
  split
  · refine (finds_advance after).bind fun _ after _ _ => ?_
    refine (sound.someArguments after).bind fun rest after _ soundRest => finds_pure ?_
    exact List.forall_mem_cons.mpr ⟨soundFirst, soundRest⟩
  · refine finds_pure ?_
    exact List.forall_mem_singleton.mpr soundFirst

theorem primary_succ (sound : ExpressionSound fuel) (reader : Reader) :
    Finds (fun node _ => Expression node) (Parse.primary (fuel + 1)) reader := by
  unfold Parse.primary
  refine finds_current_bind fun lexical => ?_
  split
  · next node known =>
    exact (finds_advance reader).bind fun _ _ _ _ => finds_pure (atom?_sound lexical known)
  · split
    · refine (finds_advance reader).bind fun opening after _ _ => ?_
      refine (sound.expression after).bind fun inner after _ soundInner => ?_
      refine (finds_expect _ _ after).bind fun closing after _ _ => finds_pure ?_
      -- parentheses widen the span of an expression and change nothing else
      exact soundInner.of_bare_eq (Node.bare_withSpan _ inner)
    · exact finds_fail

end ExpressionSound

theorem expressionSound (fuel : Nat) : ExpressionSound fuel := by
  induction fuel with
  | zero => constructor <;> intros <;> exact finds_cutOff
  -- one part after the other, with all of them known to be sound for one step less
  | succ fuel ih => exact {
      expression := ih.expression_succ
      operation least reader :=
        (ih.unary reader).bind fun left after _ sound => ih.climb least left after sound
      climb least _ := ih.climb_succ least
      unary := ih.unary_succ
      call reader := (ih.primary reader).bind fun callee after _ sound =>
        ih.calls callee after sound
      calls _ := ih.calls_succ
      arguments reader := by
        unfold Parse.arguments
        rw [finds_sees_bind]
        split
        · refine finds_pure ?_
          exact List.forall_mem_nil _
        · exact ih.someArguments reader
      someArguments := ih.someArguments_succ
      primary := ih.primary_succ }

theorem finds_expression (fuel : Nat) (reader : Reader) :
    Finds (fun node _ => Expression node) (expression fuel) reader :=
  (expressionSound fuel).expression reader

/-! Statements -/

theorem finds_declaration (fuel : Nat) (reader : Reader) :
    Finds (fun node _ => Initializer node) (declaration fuel) reader := by
  unfold declaration
  refine (finds_advance reader).bind fun _ after _ _ => ?_
  refine (finds_identifier after).bind fun _ after _ name => ?_
  refine (finds_expect _ _ after).bind fun _ after _ _ => ?_
  refine (finds_expression fuel after).bind fun _ after _ value => ?_
  exact (finds_expect _ _ after).bind fun _ _ _ _ => finds_pure (.declare name value)

theorem finds_someParameters (fuel : Nat) (reader : Reader) :
    Finds (fun names _ => ∀ name ∈ names, IsName name) (someParameters fuel) reader := by
  induction fuel generalizing reader with
  | zero => exact finds_cutOff
  | succ fuel ih =>
    unfold someParameters
    refine (finds_identifier reader).bind fun _ after _ first => ?_
    rw [finds_sees_bind]
    split
    · refine (finds_advance after).bind fun _ after _ _ => ?_
      refine (ih after).bind fun _ _ _ rest => finds_pure ?_
      exact List.forall_mem_cons.mpr ⟨first, rest⟩
    · refine finds_pure ?_
      exact List.forall_mem_singleton.mpr first

theorem finds_parameters (fuel : Nat) (reader : Reader) :
    Finds (fun names _ => ∀ name ∈ names, IsName name) (parameters fuel) reader := by
  unfold parameters
  rw [finds_sees_bind]
  split
  · refine finds_pure ?_
    exact List.forall_mem_nil _
  · exact finds_someParameters fuel reader

theorem finds_condition (fuel : Nat) (word : Keyword) (reader : Reader) :
    Finds (fun node _ => Expression node) (condition fuel word) reader := by
  unfold condition
  refine (finds_expect _ _ reader).bind fun _ after _ _ => ?_
  refine (finds_expression fuel after).bind fun _ after _ sound => ?_
  exact (finds_expect _ _ after).bind fun _ _ _ _ => finds_pure sound

theorem finds_someExpression (fuel : Nat) (reader : Reader) :
    Finds (fun value _ => ∀ node ∈ value, Expression node) (some <$> expression fuel) reader := by
  refine (finds_expression fuel reader).bind fun _ _ _ sound => finds_pure ?_
  rintro _ ⟨⟩
  exact sound

theorem finds_returned (fuel : Nat) (reader : Reader) :
    Finds (fun value _ => ∀ node ∈ value, Expression node) (returned fuel) reader := by
  unfold returned
  rw [finds_sees_bind]
  split
  · exact finds_pure (by simp)
  · exact finds_someExpression fuel reader

theorem finds_increment (fuel : Nat) (reader : Reader) :
    Finds (fun value _ => ∀ node ∈ value, Expression node) (increment fuel) reader := by
  unfold increment
  rw [finds_sees_bind]
  split
  · exact finds_pure (by simp)
  · exact finds_someExpression fuel reader

theorem finds_initializer (fuel : Nat) (reader : Reader) :
    Finds (fun value _ => ∀ node ∈ value, Initializer node) (initializer fuel) reader := by
  unfold initializer
  refine finds_current_bind fun _ => ?_
  split
  · exact (finds_advance reader).bind fun _ _ _ _ => finds_pure (by simp)
  · refine (finds_declaration fuel reader).bind fun _ _ _ sound => finds_pure ?_
    rintro _ ⟨⟩
    exact sound
  · refine (finds_expression fuel reader).bind fun _ after _ sound => ?_
    refine (finds_expect _ _ after).bind fun _ _ _ _ => finds_pure ?_
    rintro _ ⟨⟩
    exact .expression sound

theorem finds_loopCondition (fuel : Nat) (reader : Reader) :
    Finds (fun node _ => Expression node) (loopCondition fuel) reader := by
  unfold loopCondition
  refine finds_current_bind fun _ => ?_
  split
  · exact finds_pure .boolean
  · exact finds_expression fuel reader

/-- A statement that could take an `else` is followed by none: it would have taken it. -/
def IsStatement (inLoop : Bool) (node : Node) (after : Reader) : Prop :=
  Statement inLoop node ∧ (node.endsOpen = true → after.current.kind ≠ .keyword .elseWord)

theorem IsStatement.of_closed {inLoop : Bool} {node : Node} {after : Reader}
    (sound : Statement inLoop node) (closed : node.endsOpen = false) :
    IsStatement inLoop node after := by
  refine ⟨sound, fun isOpen => ?_⟩
  rw [closed] at isOpen
  cases isOpen

theorem IsStatement.of_initializer {inLoop : Bool} {node : Node} {after : Reader}
    (sound : Initializer node) : IsStatement inLoop node after := by
  refine .of_closed (sound.statement inLoop) ?_
  cases sound with
  | expression sound => cases sound <;> rfl
  | declare => rfl

theorem IsStatement.block {inLoop : Bool} {span : Span} {statements : List Node} {after : Reader}
    (sound : ∀ node ∈ statements, Statement inLoop node) :
    IsStatement inLoop (.block span statements) after :=
  .of_closed (.block sound) (loopEndsOpen_eq_false sound)

theorem finds_returning (inLoop : Bool) (fuel : Nat) (reader : Reader) :
    Finds (IsStatement inLoop) (returning fuel) reader := by
  unfold returning
  refine (finds_advance reader).bind fun _ after _ _ => ?_
  refine (finds_returned fuel after).bind fun _ after _ sound => ?_
  exact (finds_expect _ _ after).bind fun _ _ _ _ => finds_pure (.of_closed (.returning sound) rfl)

theorem finds_loopControl {word : Keyword} {node : Span → Node} {reader : Reader}
    (sound : ∀ span after, IsStatement true (node span) after) :
    Finds (IsStatement (reader.loops != 0)) (loopControl word node) reader := by
  unfold loopControl
  intro lexical
  rw [inLoop_bind]
  split
  · next inLoop =>
    -- outside of loops this part has failed already
    rw [inLoop]
    refine (finds_advance reader).bind ?_ lexical
    intro _ after _ _
    exact (finds_expect _ _ after).bind fun _ _ _ _ => finds_pure (sound _ _)
  · trivial

theorem finds_expressionStatement (inLoop : Bool) (fuel : Nat) (reader : Reader) :
    Finds (IsStatement inLoop) (expressionStatement fuel) reader := by
  unfold expressionStatement
  refine (finds_expression fuel reader).bind fun _ after _ sound => ?_
  rw [finds_sees_bind]
  split
  · exact finds_pure (.of_initializer (.expression sound))
  · exact (finds_expect _ _ after).bind fun _ _ _ _ =>
      finds_pure (.of_initializer (.expression sound))

structure StatementSound (fuel : Nat) : Prop where
  statement : ∀ reader, Finds (IsStatement (reader.loops != 0)) (statement fuel) reader
  definition : ∀ inLoop reader, Finds (IsStatement inLoop) (definition fuel) reader
  block : ∀ reader,
    Finds (fun found _ => ∀ node ∈ found.1, Statement (reader.loops != 0) node) (block fuel) reader
  sequence : ∀ inBraces reader,
    Finds (fun nodes _ => ∀ node ∈ nodes, Statement (reader.loops != 0) node)
      (sequence fuel inBraces) reader
  branch : ∀ reader, Finds (IsStatement (reader.loops != 0)) (branch fuel) reader
  whileLoop : ∀ inLoop reader, Finds (IsStatement inLoop) (whileLoop fuel) reader
  forLoop : ∀ inLoop reader, Finds (IsStatement inLoop) (forLoop fuel) reader

namespace StatementSound

variable {fuel : Nat}

theorem body (sound : StatementSound fuel) (reader : Reader) :
    Finds (IsStatement true) (insideLoop (Parse.statement fuel)) reader := by
  refine finds_around (fun _ lexical => lexical) (fun _ lexical => lexical) ?_
    (sound.statement _) fun _ _ found => found
  intro reached loops
  exact congrArg (· - 1) loops

theorem statement_succ (sound : StatementSound fuel) (reader : Reader) :
    Finds (IsStatement (reader.loops != 0)) (Parse.statement (fuel + 1)) reader := by
  unfold Parse.statement
  refine finds_current_bind fun _ => ?_
  split
  · exact (finds_declaration fuel reader).imp fun _ _ found => .of_initializer found
  · exact sound.definition _ reader
  · exact sound.branch reader
  · exact sound.whileLoop _ reader
  · exact sound.forLoop _ reader
  · exact finds_returning _ fuel reader
  · exact finds_loopControl fun _ _ => .of_closed .breaking rfl
  · exact finds_loopControl fun _ _ => .of_closed .continuing rfl
  · exact (sound.block reader).bind fun found after _ inside => finds_pure (.block inside)
  · exact finds_expressionStatement _ fuel reader

theorem definition_succ (sound : StatementSound fuel) (inLoop : Bool) (reader : Reader) :
    Finds (IsStatement inLoop) (Parse.definition (fuel + 1)) reader := by
  unfold Parse.definition
  refine (finds_advance reader).bind fun _ after _ _ => ?_
  refine (finds_identifier after).bind fun _ after _ name => ?_
  refine (finds_expect _ _ after).bind fun _ after _ _ => ?_
  refine (finds_parameters fuel after).bind fun _ after _ names => ?_
  refine (finds_expect _ _ after).bind fun _ after _ _ => ?_
  -- the body is read as outside of loops, and afterwards as many are around as before
  have body : Finds (fun found _ => ∀ node ∈ found.1, Statement false node)
      (outsideLoops (Parse.block fuel)) after :=
    finds_around (fun _ lexical => lexical) (fun _ lexical => lexical) (fun _ _ => rfl)
      (sound.block { after with loops := 0 }) fun _ _ found => found
  exact body.bind fun _ _ _ inside => finds_pure (.of_closed (.function name names inside) rfl)

theorem block_succ (sound : StatementSound fuel) (reader : Reader) :
    Finds (fun found _ => ∀ node ∈ found.1, Statement (reader.loops != 0) node)
      (Parse.block (fuel + 1)) reader := by
  unfold Parse.block
  refine (finds_expect _ _ reader).bind fun _ after loops _ => ?_
  refine (sound.sequence true after).bind fun found after _ inside => ?_
  rw [loops] at inside
  exact (finds_expect _ _ after).bind fun _ _ _ _ => finds_pure inside

theorem sequence_succ (sound : StatementSound fuel) (inBraces : Bool) (reader : Reader) :
    Finds (fun nodes _ => ∀ node ∈ nodes, Statement (reader.loops != 0) node)
      (Parse.sequence (fuel + 1) inBraces) reader := by
  unfold Parse.sequence
  refine finds_current_bind fun _ => ?_
  split
  · refine finds_pure ?_
    exact List.forall_mem_nil _
  · refine (sound.statement reader).bind fun first after loops soundFirst => ?_
    refine (sound.sequence inBraces after).bind fun rest _ _ soundRest => finds_pure ?_
    rw [loops] at soundRest
    exact List.forall_mem_cons.mpr ⟨soundFirst.1, soundRest⟩

theorem branch_succ (sound : StatementSound fuel) (reader : Reader) :
    Finds (IsStatement (reader.loops != 0)) (Parse.branch (fuel + 1)) reader := by
  unfold Parse.branch
  refine (finds_advance reader).bind fun _ after loops _ => ?_
  refine (finds_condition fuel _ after).bind fun test after loopsTest soundTest => ?_
  refine (sound.statement after).bind fun thenBranch last loopsThen soundThen => ?_
  -- the branch is in as many loops as the whole `if`
  rw [loopsTest, loops] at soundThen loopsThen
  rw [finds_sees_bind]
  split
  · next isElse =>
    refine (finds_advance last).bind fun _ after loopsElse _ => ?_
    refine (sound.statement after).bind fun elseBranch _ _ soundElse => finds_pure ?_
    rw [loopsElse, loopsThen] at soundElse
    -- an open branch would have taken the `else`
    have closed : thenBranch.endsOpen = false := by
      cases isOpen : thenBranch.endsOpen with
      | false => rfl
      | true => exact absurd (beq_iff_eq.mp isElse) (soundThen.2 isOpen)
    exact ⟨.ifElse soundTest soundThen.1 closed soundElse.1, soundElse.2⟩
  · next noElse =>
    refine finds_pure ⟨.ifThen soundTest soundThen.1, fun _ same => noElse ?_⟩
    exact beq_iff_eq.mpr same

theorem whileLoop_succ (sound : StatementSound fuel) (inLoop : Bool) (reader : Reader) :
    Finds (IsStatement inLoop) (Parse.whileLoop (fuel + 1)) reader := by
  unfold Parse.whileLoop
  refine (finds_advance reader).bind fun _ after _ _ => ?_
  refine (finds_condition fuel _ after).bind fun test after _ soundTest => ?_
  refine (sound.body after).bind fun body _ _ soundBody => finds_pure ?_
  exact ⟨.whileLoop soundTest soundBody.1, soundBody.2⟩

theorem forLoop_succ (sound : StatementSound fuel) (inLoop : Bool) (reader : Reader) :
    Finds (IsStatement inLoop) (Parse.forLoop (fuel + 1)) reader := by
  unfold Parse.forLoop
  refine (finds_advance reader).bind fun _ after _ _ => ?_
  refine (finds_expect _ _ after).bind fun _ after _ _ => ?_
  refine (finds_initializer fuel after).bind fun first after _ soundFirst => ?_
  refine (finds_loopCondition fuel after).bind fun test after _ soundTest => ?_
  refine (finds_expect _ _ after).bind fun _ after _ _ => ?_
  refine (finds_increment fuel after).bind fun step after _ soundStep => ?_
  refine (finds_expect _ _ after).bind fun _ after _ _ => ?_
  refine (sound.body after).bind fun body after _ soundBody => finds_pure ?_
  cases step with
  | some step =>
    refine ⟨.forLoop soundFirst soundTest soundBody.1 (soundStep step rfl), fun isOpen => ?_⟩
    rw [Node.endsOpen_forLoop] at isOpen
    exact soundBody.2 isOpen
  | none =>
    -- without an increment it is a loop like any other in a block
    refine .block fun node member => ?_
    rcases List.mem_append.mp member with isFirst | isLoop
    · exact (soundFirst node (Option.mem_toList.mp isFirst)).statement inLoop
    · rw [List.mem_singleton.mp isLoop]
      exact .whileLoop soundTest soundBody.1

end StatementSound

theorem statementSound (fuel : Nat) : StatementSound fuel := by
  induction fuel with
  | zero => constructor <;> intros <;> exact finds_cutOff
  | succ fuel ih => exact {
      statement := ih.statement_succ
      definition := ih.definition_succ
      block := ih.block_succ
      sequence := ih.sequence_succ
      branch := ih.branch_succ
      whileLoop := ih.whileLoop_succ
      forLoop := ih.forLoop_succ }

theorem finds_wholeProgram {fuel : Nat} {reader : Reader} (outside : reader.loops = 0) :
    Finds (fun tree _ => Program tree) (wholeProgram fuel) reader := by
  unfold wholeProgram
  refine ((statementSound fuel).sequence false reader).bind fun _ _ _ sound => ?_
  rw [outside] at sound
  exact finds_current_bind fun _ => finds_pure (.program sound)

end Scriptlet.Parse

namespace Scriptlet

/-- A source that is a program at all has a well-formed tree. -/
theorem WellFormed.Program.of_readProgram {source : List Char} {tree : Node}
    (read : readProgram source = .ok tree) : WellFormed.Program tree := by
  unfold readProgram at read
  cases started : Reader.start source with
  | error error =>
    rw [started] at read
    cases read
  | ok reader =>
    rw [started] at read
    obtain ⟨lexical, outside⟩ := Reader.lexical_start started
    have done : Parse.wholeProgram reader.fuel reader = .done tree reader.program.2 :=
      (Outcome.result_eq_ok_iff reader.program_ends).mp (Prod.ext read rfl)
    have finds : Parse.Finds _ (Parse.wholeProgram reader.fuel) reader :=
      Parse.finds_wholeProgram outside
    have found := finds lexical
    rw [done] at found
    exact found.2.2

end Scriptlet
