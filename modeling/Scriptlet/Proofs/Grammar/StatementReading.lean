import Scriptlet.Grammar.Program
import Scriptlet.Proofs.Grammar.ExpressionReading

/-! Written statements and programs are read back. -/

set_option autoImplicit false

namespace Scriptlet

theorem WellFormed.Expression.beginsExpression_of_passes {node : Node}
    (sound : WellFormed.Expression node) {kinds : List Kind} {reader after : Reader}
    (passes : Passes (node.expressionKinds ++ kinds) reader after) :
    reader.current.kind.beginsExpression = true := by
  obtain ⟨kind, rest, same, begins⟩ := sound.exists_cons
  rw [same, List.cons_append] at passes
  rw [(Passes.cons_iff.mp passes).1]
  exact begins

theorem WellFormed.Expression.current_ne {node : Node} (sound : WellFormed.Expression node)
    {kinds : List Kind} {reader after : Reader}
    (passes : Passes (node.expressionKinds ++ kinds) reader after) (kind : Kind)
    (other : kind.beginsExpression = false) : (reader.current.kind == kind) = false := by
  refine beq_eq_false_iff_ne.mpr fun equal => ?_
  have begins := sound.beginsExpression_of_passes passes
  rw [equal, other] at begins
  cases begins

/-! Parts with expressions in them -/

section

variable {α : Type} {good : α → Reader → Prop} {kinds : List Kind} {reader after : Reader}

theorem meets_expression {node : Node} (sound : WellFormed.Expression node) {kind : Kind}
    (passes : Passes (node.expressionKinds ++ kind :: kinds) reader after)
    (ends : kind.endsExpression = true) {fuel : Nat} {next : Node → Parse α}
    (goesOn : ∀ found middle, found.bare = node.bare → Passes (kind :: kinds) middle after →
      (next found middle).Meets good fun _ _ => False) :
    ((Parse.expression fuel >>= next) reader).Meets good fun _ _ => False := by
  obtain ⟨middle, text, passes⟩ := Passes.append_iff.mp passes
  have current := (Passes.cons_iff.mp passes).1
  have reads := sound.reads text (by rw [current]; exact ends)
  refine Action.meets_bind (reads fuel) fun found reached same => ?_
  rw [same.2]
  exact goesOn found middle same.1 passes

theorem meets_condition {node : Node} (sound : WellFormed.Expression node) {word : Keyword}
    (passes : Passes (.mark .leftParen :: (node.expressionKinds ++ .mark .rightParen :: kinds))
      reader after) {fuel : Nat} {next : Node → Parse α}
    (goesOn : ∀ found middle, found.bare = node.bare → Passes kinds middle after →
      (next found middle).Meets good fun _ _ => False) :
    ((Parse.condition fuel word >>= next) reader).Meets good fun _ _ => False := by
  simp only [Parse.condition, bind_assoc, pure_bind]
  refine passes.meets_expect fun _ _ passes => ?_
  refine meets_expression sound passes rfl fun found _ same passes => ?_
  exact passes.meets_expect fun _ middle passes => goesOn found middle same passes

theorem meets_declaration {span : Span} {name : String} {value : Node}
    (sound : WellFormed.Expression value)
    (passes : Passes ((Node.declare span name value).statementKinds ++ kinds) reader after)
    {fuel : Nat} {next : Node → Parse α}
    (goesOn : ∀ found middle, found.bare = (Node.declare span name value).bare →
      Passes kinds middle after → (next found middle).Meets good fun _ _ => False) :
    ((Parse.declaration fuel >>= next) reader).Meets good fun _ _ => False := by
  simp only [Node.statementKinds, List.cons_append, List.append_assoc, List.nil_append] at passes
  simp only [Parse.declaration, bind_assoc, pure_bind]
  refine passes.meets_advance fun word _ passes => ?_
  refine passes.meets_identifier fun _ passes => ?_
  refine passes.meets_expect fun _ _ passes => ?_
  refine meets_expression sound passes rfl fun found _ same passes => ?_
  refine passes.meets_expect fun semicolon middle passes => ?_
  exact goesOn _ middle (congrArg (Node.declare _ name) same) passes

end

/-! Sequences of statements -/

/-- How a statement's text is read where one is expected: `break` and `continue` need a loop around
them, and an `else` must not follow an `if` that has none. -/
def ReadsStatement (inLoop : Bool) (node : Node) : Prop :=
  ∀ reader after, Passes node.statementKinds reader after → (inLoop = true → reader.loops ≠ 0) →
    (node.endsOpen = true → after.current.kind ≠ .keyword .elseWord) →
      Reads Parse.statement node reader after

theorem ne_else_of_passes_sequence {inLoop : Bool} {statements : List Node}
    (sound : ∀ node ∈ statements, WellFormed.Statement inLoop node) {reader after : Reader}
    (passes : Passes (Node.sequenceKinds statements) reader after)
    (ends : after.current.kind ≠ .keyword .elseWord) :
    reader.current.kind ≠ .keyword .elseWord := by
  cases statements with
  | nil =>
    rw [Passes.nil_iff.mp passes] at ends
    exact ends
  | cons node rest =>
    obtain ⟨kind, more, text, begins⟩ := (sound node List.mem_cons_self).exists_cons
    rw [Node.sequenceKinds, text] at passes
    rw [(Passes.cons_iff.mp passes).1]
    intro same
    rw [same] at begins
    cases begins

theorem reads_sequence {inLoop : Bool} {statements : List Node}
    (sound : ∀ node ∈ statements, WellFormed.Statement inLoop node)
    (reads : ∀ node ∈ statements, ReadsStatement inLoop node) {inBraces : Bool}
    {reader after : Reader} (passes : Passes (Node.sequenceKinds statements) reader after)
    (loops : inLoop = true → reader.loops ≠ 0)
    (ends : after.current.kind = .endOfInput ∨
      inBraces = true ∧ after.current.kind = .mark .rightBrace) (fuel : Nat) :
    (Parse.sequence fuel inBraces reader).Meets
      (fun found reached => found.map Node.bare = statements.map Node.bare ∧ reached = after)
      fun _ _ => False := by
  induction statements generalizing reader fuel with
  | nil =>
    cases fuel with
    | zero => trivial
    | succ fuel =>
      cases Passes.nil_iff.mp passes
      rw [Parse.sequence, Parse.current_bind, if_pos]
      · exact ⟨rfl, rfl⟩
      · rcases ends with ended | ⟨braces, ended⟩
        · rw [ended]
          rfl
        · rw [ended, braces]
          rfl
  | cons node rest ih =>
    cases fuel with
    | zero => trivial
    | succ fuel =>
      obtain ⟨middle, text, passes⟩ := Passes.append_iff.mp passes
      have soundRest : ∀ other ∈ rest, WellFormed.Statement inLoop other :=
        fun other member => sound other (List.mem_cons_of_mem _ member)
      -- the sequence does not end before a token that begins a statement
      have goesOn : reader.current.kind.beginsStatement = true := by
        obtain ⟨kind, more, same, begins⟩ := (sound node List.mem_cons_self).exists_cons
        rw [same] at text
        rw [(Passes.cons_iff.mp text).1]
        exact begins
      rw [Parse.sequence, Parse.current_bind, Kind.ends_eq_false_of_beginsStatement goesOn,
        if_neg Bool.false_ne_true]
      -- an `else` begins no statement, so none can follow this one
      have noElse : middle.current.kind ≠ .keyword .elseWord := by
        refine ne_else_of_passes_sequence soundRest passes ?_
        rcases ends with ended | ⟨_, ended⟩ <;> simp [ended]
      refine Action.meets_bind (reads node List.mem_cons_self reader middle text loops
        (fun _ => noElse) fuel) fun found reached same => ?_
      rw [same.2]
      have others := ih soundRest (fun other member => reads other (List.mem_cons_of_mem _ member))
        passes (fun inside => by rw [text.loops]; exact loops inside) fuel
      refine Action.meets_bind others fun more last sameMore => ?_
      exact ⟨congrArg₂ List.cons same.1 sameMore.1, sameMore.2⟩

/-! Statements of each kind -/

theorem Parse.statement_of_beginsExpression {reader : Reader}
    (begins : reader.current.kind.beginsExpression = true) (fuel : Nat) :
    Parse.statement (fuel + 1) reader = Parse.expressionStatement fuel reader := by
  rw [Parse.statement, Parse.current_bind]
  cases kind : reader.current.kind with
  | keyword word =>
    rw [kind] at begins
    cases word <;> first | rfl | cases begins
  | mark symbol =>
    rw [kind] at begins
    cases symbol <;> first | rfl | cases begins
  | _ => rfl

theorem readsStatement_expression {inLoop : Bool} {node : Node}
    (sound : WellFormed.Expression node) : ReadsStatement inLoop node := by
  intro reader after passes _ _ fuel
  rw [sound.statementKinds] at passes
  cases fuel with
  | zero => trivial
  | succ fuel =>
    have begins := sound.beginsExpression_of_passes passes
    rw [Parse.statement_of_beginsExpression begins, Parse.expressionStatement]
    refine meets_expression sound passes rfl fun found middle same passes => ?_
    rw [Parse.sees_bind, (Passes.cons_iff.mp passes).1]
    refine passes.meets_expect fun _ _ passes => ?_
    exact ⟨same, (Passes.nil_iff.mp passes).symm⟩

theorem readsStatement_declare {inLoop : Bool} {span : Span} {name : String} {value : Node}
    (sound : WellFormed.Expression value) :
    ReadsStatement inLoop (.declare span name value) := by
  intro reader after passes _ _ fuel
  cases fuel with
  | zero => trivial
  | succ fuel =>
    have current := (Passes.cons_iff.mp passes).1
    rw [Parse.statement, Parse.current_bind, current]
    change (Parse.declaration fuel reader).Meets _ _
    rw [← bind_pure (Parse.declaration fuel)]
    rw [← List.append_nil (Node.statementKinds _)] at passes
    refine meets_declaration sound passes fun found middle same passes => ?_
    exact ⟨same, (Passes.nil_iff.mp passes).symm⟩

theorem readsStatement_returning {inLoop : Bool} {span : Span} {value : Option Node}
    (sound : ∀ node ∈ value, WellFormed.Expression node) :
    ReadsStatement inLoop (.return span value) := by
  intro reader after passes _ _ fuel
  cases fuel with
  | zero => trivial
  | succ fuel =>
    rw [Parse.statement, Parse.current_bind, (Passes.cons_iff.mp passes).1]
    change (Parse.returning fuel reader).Meets _ _
    rw [Parse.returning]
    refine passes.meets_advance fun word middle passes => ?_
    rw [Parse.returned]
    cases value with
    | none =>
      simp only [bind_assoc, Parse.sees_bind, (Passes.cons_iff.mp passes).1]
      refine passes.meets_expect fun semicolon last passes => ?_
      exact ⟨rfl, (Passes.nil_iff.mp passes).symm⟩
    | some value =>
      have sound := sound value rfl
      -- what begins an expression is not the semicolon of a `return` without a value
      have begins := sound.current_ne passes (.mark .semicolon) rfl
      simp only [bind_assoc, Parse.sees_bind, begins, Bool.false_eq_true, if_false, bind_map_left]
      refine meets_expression sound passes rfl fun found middle same passes => ?_
      refine passes.meets_expect fun semicolon last passes => ?_
      exact ⟨congrArg (fun node => Node.return _ (some node)) same,
        (Passes.nil_iff.mp passes).symm⟩

theorem reads_loopControl {word : Keyword} {node : Span → Node} {first : Kind}
    {reader after : Reader} (passes : Passes [first, .mark .semicolon] reader after)
    (loops : reader.loops ≠ 0) :
    (Parse.loopControl word node reader).Meets
      (fun found reached => (∃ span, found = node span) ∧ reached = after) fun _ _ => False := by
  rw [Parse.loopControl, Parse.inLoop_bind, bne_iff_ne.mpr loops]
  refine passes.meets_advance fun _ _ passes => ?_
  refine passes.meets_expect fun _ _ passes => ?_
  exact ⟨⟨_, rfl⟩, (Passes.nil_iff.mp passes).symm⟩

theorem readsStatement_breaking {span : Span} : ReadsStatement true (.break span) := by
  intro reader after passes loops _ fuel
  cases fuel with
  | zero => trivial
  | succ fuel =>
    rw [Parse.statement, Parse.current_bind, (Passes.cons_iff.mp passes).1]
    refine (reads_loopControl passes (loops rfl)).imp fun found _ same => ⟨?_, same.2⟩
    obtain ⟨place, rfl⟩ := same.1
    rfl

theorem readsStatement_continuing {span : Span} : ReadsStatement true (.continue span) := by
  intro reader after passes loops _ fuel
  cases fuel with
  | zero => trivial
  | succ fuel =>
    rw [Parse.statement, Parse.current_bind, (Passes.cons_iff.mp passes).1]
    refine (reads_loopControl passes (loops rfl)).imp fun found _ same => ⟨?_, same.2⟩
    obtain ⟨place, rfl⟩ := same.1
    rfl

theorem meets_someParameters {α : Type} {good : α → Reader → Prop}
    {bad : SyntaxError → Reader → Prop} {first : String} {rest : List String} {kinds : List Kind}
    {reader after : Reader}
    (passes : Passes (Node.parameterKinds (first :: rest) ++ .mark .rightParen :: kinds)
      reader after)
    {fuel : Nat} {next : List String → Parse α}
    (goesOn : ∀ middle, Passes (.mark .rightParen :: kinds) middle after →
      (next (first :: rest) middle).Meets good bad) :
    ((Parse.someParameters fuel >>= next) reader).Meets good bad := by
  induction rest generalizing first reader fuel next with
  | nil =>
    cases fuel with
    | zero => trivial
    | succ fuel =>
      simp only [Parse.someParameters, bind_assoc]
      refine passes.meets_identifier fun middle passes => ?_
      rw [Parse.sees_bind, (Passes.cons_iff.mp passes).1]
      exact goesOn middle passes
  | cons second rest ih =>
    cases fuel with
    | zero => trivial
    | succ fuel =>
      simp only [Parse.someParameters, bind_assoc]
      refine passes.meets_identifier fun middle passes => ?_
      rw [Parse.sees_bind, (Passes.cons_iff.mp passes).1]
      simp only [beq_self_eq_true, if_true, bind_assoc, pure_bind]
      exact passes.meets_advance fun comma _ passes => ih passes goesOn

theorem meets_parameters {α : Type} {good : α → Reader → Prop} {bad : SyntaxError → Reader → Prop}
    {names : List String} {kinds : List Kind} {reader after : Reader}
    (passes : Passes (Node.parameterKinds names ++ .mark .rightParen :: kinds) reader after)
    {fuel : Nat} {next : List String → Parse α}
    (goesOn : ∀ middle, Passes (.mark .rightParen :: kinds) middle after →
      (next names middle).Meets good bad) :
    ((Parse.parameters fuel >>= next) reader).Meets good bad := by
  rw [Parse.parameters, bind_assoc, Parse.sees_bind]
  cases names with
  | nil =>
    rw [(Passes.cons_iff.mp passes).1]
    exact goesOn reader passes
  | cons first rest =>
    -- a list that begins with a name is not empty
    have named : (reader.current.kind == .mark .rightParen) = false := by
      cases rest <;> rw [(Passes.cons_iff.mp passes).1] <;> rfl
    rw [named]
    exact meets_someParameters passes goesOn

theorem reads_block {inLoop : Bool} {statements : List Node}
    (sound : ∀ node ∈ statements, WellFormed.Statement inLoop node)
    (reads : ∀ node ∈ statements, ReadsStatement inLoop node) {reader after : Reader}
    (passes : Passes (.mark .leftBrace :: (Node.sequenceKinds statements ++ [.mark .rightBrace]))
      reader after) (loops : inLoop = true → reader.loops ≠ 0) (fuel : Nat) :
    (Parse.block fuel reader).Meets
      (fun found reached => found.1.map Node.bare = statements.map Node.bare ∧ reached = after)
      fun _ _ => False := by
  cases fuel with
  | zero => trivial
  | succ fuel =>
    rw [Parse.block]
    have whole := passes.loops
    refine passes.meets_expect fun opening inner passes => ?_
    obtain ⟨closing, text, passes⟩ := Passes.append_iff.mp passes
    -- braces do not change how many loops are around
    have inside : inLoop = true → inner.loops ≠ 0 := by
      intro inLoop
      rw [← text.loops, ← passes.loops, whole]
      exact loops inLoop
    have ends := (Passes.cons_iff.mp passes).1
    refine Action.meets_bind (reads_sequence sound reads text inside (.inr ⟨rfl, ends⟩) fuel)
      fun found reached same => ?_
    rw [same.2]
    refine passes.meets_expect fun _ _ passes => ?_
    exact ⟨same.1, (Passes.nil_iff.mp passes).symm⟩

theorem readsStatement_block {inLoop : Bool} {span : Span} {statements : List Node}
    (sound : ∀ node ∈ statements, WellFormed.Statement inLoop node)
    (reads : ∀ node ∈ statements, ReadsStatement inLoop node) :
    ReadsStatement inLoop (.block span statements) := by
  intro reader after passes loops _ fuel
  rw [WellFormed.statementKinds_block sound] at passes
  cases fuel with
  | zero => trivial
  | succ fuel =>
    rw [Parse.statement, Parse.current_bind, (Passes.cons_iff.mp passes).1]
    refine Action.meets_bind (reads_block sound reads passes loops fuel) fun found _ same => ?_
    refine ⟨?_, same.2⟩
    simp only [Node.bare, Node.mapSpans, Node.mapSpansEach_eq_map]
    exact congrArg (Node.block _) same.1

theorem readsStatement_function {inLoop : Bool} {span : Span} {name : String}
    {parameters : List String} {body : List Node}
    (sound : ∀ node ∈ body, WellFormed.Statement false node)
    (reads : ∀ node ∈ body, ReadsStatement false node) :
    ReadsStatement inLoop (.function span name parameters body) := by
  intro reader after passes _ _ fuel
  rw [Node.statementKinds] at passes
  cases fuel with
  | zero => trivial
  | succ fuel =>
    rw [Parse.statement, Parse.current_bind, (Passes.cons_iff.mp passes).1]
    change (Parse.definition fuel reader).Meets _ _
    cases fuel with
    | zero => trivial
    | succ fuel =>
      rw [Parse.definition]
      refine passes.meets_advance fun word _ passes => ?_
      refine passes.meets_identifier fun _ passes => ?_
      refine passes.meets_expect fun _ _ passes => ?_
      refine meets_parameters passes fun _ passes => ?_
      refine passes.meets_expect fun _ middle passes => ?_
      -- the tokens of the body are the same outside of all loops
      have block := reads_block sound reads (passes.withLoops 0) (by simp) fuel
      have outside : (Parse.outsideLoops (Parse.block fuel) middle).Meets
          (fun found reached => found.1.map Node.bare = body.map Node.bare ∧ reached = after)
          fun _ _ => False := by
        refine Action.meets_around (block.imp fun found reached same => ⟨same.1, ?_⟩)
        rw [same.2, ← passes.loops]
      refine Action.meets_bind outside fun found reached same => ⟨?_, same.2⟩
      simp only [Node.bare, Node.mapSpans, Node.mapSpansEach_eq_map]
      exact congrArg (Node.function _ name parameters) same.1

theorem readsStatement_ifThen {inLoop : Bool} {span : Span} {condition thenBranch : Node}
    (sound : WellFormed.Expression condition) (reads : ReadsStatement inLoop thenBranch) :
    ReadsStatement inLoop (.branch span condition thenBranch none) := by
  intro reader after passes loops noElse fuel
  have whole := passes.loops
  rw [Node.statementKinds, Node.elseKinds, List.append_nil] at passes
  cases fuel with
  | zero => trivial
  | succ fuel =>
    rw [Parse.statement, Parse.current_bind, (Passes.cons_iff.mp passes).1]
    change (Parse.branch fuel reader).Meets _ _
    cases fuel with
    | zero => trivial
    | succ fuel =>
      rw [Parse.branch]
      refine passes.meets_advance fun word _ passes => ?_
      refine meets_condition sound passes fun test middle sameTest passes => ?_
      have inside : inLoop = true → middle.loops ≠ 0 := by
        rw [← passes.loops, whole]
        exact loops
      -- what follows is no `else`, so the `if` that the branch might end in takes none
      have follows : after.current.kind ≠ .keyword .elseWord := noElse rfl
      refine Action.meets_bind (reads middle after passes inside (fun _ => follows) fuel)
        fun found reached same => ?_
      rw [same.2, Parse.sees_bind, beq_eq_false_iff_ne.mpr follows]
      refine ⟨?_, rfl⟩
      exact congrArg₂ (fun test found => Node.branch _ test found none) sameTest same.1

theorem readsStatement_ifElse {inLoop : Bool} {span : Span}
    {condition thenBranch elseBranch : Node} (sound : WellFormed.Expression condition)
    (reads : ReadsStatement inLoop thenBranch) (closed : thenBranch.endsOpen = false)
    (readsElse : ReadsStatement inLoop elseBranch) :
    ReadsStatement inLoop (.branch span condition thenBranch (some elseBranch)) := by
  intro reader after passes loops noElse fuel
  have whole := passes.loops
  rw [Node.statementKinds, Node.elseKinds] at passes
  cases fuel with
  | zero => trivial
  | succ fuel =>
    rw [Parse.statement, Parse.current_bind, (Passes.cons_iff.mp passes).1]
    change (Parse.branch fuel reader).Meets _ _
    cases fuel with
    | zero => trivial
    | succ fuel =>
      rw [Parse.branch]
      refine passes.meets_advance fun word _ passes => ?_
      refine meets_condition sound passes fun test middle sameTest passes => ?_
      obtain ⟨other, text, passesElse⟩ := Passes.append_iff.mp passes
      have inside : inLoop = true → middle.loops ≠ 0 := by
        rw [← passes.loops, whole]
        exact loops
      -- the `else` belongs to this `if`: none within its branch is open
      refine Action.meets_bind (reads middle other text inside
        (fun isOpen => absurd isOpen (by rw [closed]; exact Bool.false_ne_true)) fuel)
        fun found reached same => ?_
      rw [same.2, Parse.sees_bind, (Passes.cons_iff.mp passesElse).1]
      refine passesElse.meets_advance fun _ last passesElse => ?_
      have insideElse : inLoop = true → last.loops ≠ 0 := by
        rw [← passesElse.loops, whole]
        exact loops
      refine Action.meets_bind (readsElse last after passesElse insideElse noElse fuel)
        fun foundElse _ sameElse => ⟨?_, sameElse.2⟩
      simp only [Node.bare, Node.mapSpans, Node.mapSpansIfAny] at sameTest same sameElse ⊢
      rw [sameTest, same.1, sameElse.1]

theorem ReadsStatement.body {body : Node} (reads : ReadsStatement true body)
    {reader after : Reader} (passes : Passes body.statementKinds reader after)
    (noElse : body.endsOpen = true → after.current.kind ≠ .keyword .elseWord) :
    Reads (fun fuel => Parse.insideLoop (Parse.statement fuel)) body reader after := by
  intro fuel
  have inner := reads _ _ (passes.withLoops (reader.loops + 1)) (fun _ => Nat.succ_ne_zero _) noElse
    fuel
  refine Action.meets_around (inner.imp fun found reached same => ⟨same.1, ?_⟩)
  rw [same.2, Nat.add_sub_cancel, ← passes.loops]

theorem readsStatement_whileLoop {inLoop : Bool} {span : Span} {condition body : Node}
    (sound : WellFormed.Expression condition) (reads : ReadsStatement true body) :
    ReadsStatement inLoop (.loop span condition body none) := by
  intro reader after passes _ noElse fuel
  rw [Node.statementKinds] at passes
  cases fuel with
  | zero => trivial
  | succ fuel =>
    rw [Parse.statement, Parse.current_bind, (Passes.cons_iff.mp passes).1]
    change (Parse.whileLoop fuel reader).Meets _ _
    cases fuel with
    | zero => trivial
    | succ fuel =>
      rw [Parse.whileLoop]
      refine passes.meets_advance fun word _ passes => ?_
      refine meets_condition sound passes fun test middle sameTest passes => ?_
      refine Action.meets_bind (reads.body passes noElse fuel) fun found _ same => ⟨?_, same.2⟩
      exact congrArg₂ (fun test found => Node.loop _ test found none) sameTest same.1

theorem Parse.initializer_of_beginsExpression {reader : Reader}
    (begins : reader.current.kind.beginsExpression = true) (fuel : Nat) :
    Parse.initializer fuel reader =
      (Parse.expression fuel >>= fun node =>
        Parse.expect .semicolon .semicolonAfterInitializer >>= fun _ =>
          pure (some node)) reader := by
  rw [Parse.initializer, Parse.current_bind]
  cases kind : reader.current.kind with
  | keyword word =>
    rw [kind] at begins
    cases word <;> first | rfl | cases begins
  | mark symbol =>
    rw [kind] at begins
    cases symbol <;> first | rfl | cases begins
  | _ => rfl

theorem meets_initializer {α : Type} {good : α → Reader → Prop} {first : Option Node}
    (sound : ∀ node ∈ first, WellFormed.Initializer node) {kinds : List Kind}
    {reader after : Reader}
    (passes : Passes (first.elim [.mark .semicolon] Node.statementKinds ++ kinds) reader after)
    {fuel : Nat} {next : Option Node → Parse α}
    (goesOn : ∀ found middle, found.map Node.bare = first.map Node.bare →
      Passes kinds middle after → (next found middle).Meets good fun _ _ => False) :
    ((Parse.initializer fuel >>= next) reader).Meets good fun _ _ => False := by
  cases first with
  | none =>
    rw [Parse.initializer, bind_assoc, Parse.current_bind, (Passes.cons_iff.mp passes).1]
    simp only [bind_assoc, pure_bind]
    exact passes.meets_advance fun _ middle passes => goesOn none middle rfl passes
  | some node =>
    cases sound node rfl with
    | declare name value =>
      rw [Parse.initializer, bind_assoc, Parse.current_bind, (Passes.cons_iff.mp passes).1]
      simp only [bind_map_left]
      exact meets_declaration value passes fun found middle same passes =>
        goesOn (some found) middle (congrArg some same) passes
    | expression value =>
      rw [Option.elim_some, value.statementKinds, List.append_assoc] at passes
      -- an expression begins with none of the tokens that are looked for before
      have begins := value.beginsExpression_of_passes passes
      rw [Action.bind_apply, Parse.initializer_of_beginsExpression begins, ← Action.bind_apply]
      simp only [bind_assoc, pure_bind]
      refine meets_expression value passes rfl fun found _ same passes => ?_
      refine passes.meets_expect fun _ middle passes => ?_
      exact goesOn (some found) middle (congrArg some same) passes

theorem readsStatement_forLoop {inLoop : Bool} {span loopSpan : Span} {first : Option Node}
    {condition body increment : Node} (soundFirst : ∀ node ∈ first, WellFormed.Initializer node)
    (sound : WellFormed.Expression condition) (reads : ReadsStatement true body)
    (soundIncrement : WellFormed.Expression increment) :
    ReadsStatement inLoop
      (.block span (first.toList ++ [.loop loopSpan condition body (some increment)])) := by
  intro reader after passes _ noElse fuel
  rw [WellFormed.statementKinds_forLoop] at passes
  rw [Node.endsOpen_forLoop] at noElse
  cases fuel with
  | zero => trivial
  | succ fuel =>
    rw [Parse.statement, Parse.current_bind, (Passes.cons_iff.mp passes).1]
    change (Parse.forLoop fuel reader).Meets _ _
    cases fuel with
    | zero => trivial
    | succ fuel =>
      rw [Parse.forLoop]
      refine passes.meets_advance fun word _ passes => ?_
      refine passes.meets_expect fun _ _ passes => ?_
      refine meets_initializer soundFirst passes fun foundFirst _ sameFirst passes => ?_
      -- neither the condition nor the increment is missing, since each begins an expression
      have conditionBegins := sound.current_ne passes (.mark .semicolon) rfl
      rw [Parse.loopCondition, bind_assoc, Parse.current_bind,
        if_neg (beq_eq_false_iff_ne.mp conditionBegins)]
      refine meets_expression sound passes rfl fun test _ sameTest passes => ?_
      refine passes.meets_expect fun _ _ passes => ?_
      have incrementBegins := soundIncrement.current_ne passes (.mark .rightParen) rfl
      rw [Parse.increment, bind_assoc, Parse.sees_bind, incrementBegins]
      simp only [Bool.false_eq_true, if_false, bind_map_left]
      refine meets_expression soundIncrement passes rfl fun step _ sameStep passes => ?_
      refine passes.meets_expect fun _ middle passes => ?_
      refine Action.meets_bind (reads.body passes noElse fuel) fun found _ same => ⟨?_, same.2⟩
      -- both initializers are there or both are not, and the trees are equal part by part
      cases first <;> cases foundFirst <;> simp_all [Node.bare, Node.mapSpans,
        Node.mapSpansEach, Node.mapSpansIfAny]

theorem WellFormed.Statement.readsStatement {inLoop : Bool} {node : Node}
    (sound : WellFormed.Statement inLoop node) : ReadsStatement inLoop node := by
  induction sound with
  | expression sound => exact readsStatement_expression sound
  | declare _ value => exact readsStatement_declare value
  | function _ _ body ih => exact readsStatement_function body ih
  | block statements ih => exact readsStatement_block statements ih
  | ifThen condition _ ih => exact readsStatement_ifThen condition ih
  | ifElse condition _ closed _ ihThen ihElse =>
    exact readsStatement_ifElse condition ihThen closed ihElse
  | whileLoop condition _ ih => exact readsStatement_whileLoop condition ih
  | forLoop first condition _ increment ih =>
    exact readsStatement_forLoop first condition ih increment
  | returning value => exact readsStatement_returning value
  | breaking => exact readsStatement_breaking
  | continuing => exact readsStatement_continuing

/-- The text of a program is read back to its end. -/
theorem WellFormed.Program.reads {tree : Node} (sound : WellFormed.Program tree)
    {reader after : Reader} (passes : Passes tree.statementKinds reader after)
    (ends : after.current.kind = .endOfInput) :
    ∃ found, Parse.wholeProgram reader.fuel reader = .done found after ∧
      found.bare = tree.bare := by
  cases sound with
  | program statements =>
    rename_i span nodes
    have reads : ∀ node ∈ nodes, ReadsStatement false node :=
      fun node member => (statements node member).readsStatement
    have whole : (Parse.wholeProgram reader.fuel reader).Meets
        (fun found reached => found.bare = (Node.program span nodes).bare ∧ reached = after)
        fun _ _ => False := by
      rw [Parse.wholeProgram]
      refine Action.meets_bind (reads_sequence statements reads passes (by simp) (.inl ends) _)
        fun found reached same => ?_
      rw [Parse.current_bind]
      refine ⟨?_, same.2⟩
      simp only [Node.bare, Node.mapSpans, Node.mapSpansEach_eq_map]
      exact congrArg (Node.program _) same.1
    obtain ⟨found, reached, done, same, rfl⟩ := whole.exists_done reader.program_ends
    exact ⟨found, done, same⟩

end Scriptlet
