import Scriptlet.Grammar.Program
import Scriptlet.Proofs.Grammar.Grouping

/-! What is read derives from the tokens given away for it, with the spans of its nodes. An error
speaks of the token in hand, of a fault after it, or of an expression that `=` follows.

The rules of statements say nothing of the loops around; what they allow contains all that is read.
-/

set_option autoImplicit false

namespace Scriptlet

/-- What a row of tokens can be. A clause comes with the semicolon that ends it. -/
inductive Phrase where
  | expression (node : Node)
  | names (names : List String)
  | optional (node : Option Node)
  | statement (node : Node)
  | initializer (node : Option Node)
  | condition (node : Node)
  | block (statements : List Node) (span : Span)
  | statements (nodes : List Node)

inductive Derives : List Token → Phrase → Prop where
  | expression {tokens : List Token} {node : Node} : Groups tokens (.operand 0 node) →
    Derives tokens (.expression node)
  | noNames : Derives [] (.names [])
  | lastName {token : Token} {name : String} : token.kind = .identifier name →
      Derives [token] (.names [name])
  | moreNames {token comma : Token} {tokens : List Token} {first : String} {rest : List String} :
    token.kind = .identifier first → comma.kind = .mark .comma → Derives tokens (.names rest) →
      rest ≠ [] → Derives (token :: comma :: tokens) (.names (first :: rest))
  | absent : Derives [] (.optional none)
  | present {tokens : List Token} {node : Node} : Derives tokens (.expression node) →
      Derives tokens (.optional (some node))
  | declared {word name equal semicolon : Token} {tokens : List Token} {text : String}
    {value : Node} : word.kind = .keyword .letWord → name.kind = .identifier text →
      equal.kind = .mark .equal → Derives tokens (.expression value) →
      semicolon.kind = .mark .semicolon →
      Derives (word :: name :: equal :: (tokens ++ [semicolon]))
        (.statement (.declare (word.span.merge semicolon.span) text value))
  | defined {word name opening closing : Token} {low high : List Token} {text : String}
    {parameters : List String} {body : List Node} {span : Span} :
    word.kind = .keyword .fnWord → name.kind = .identifier text →
      opening.kind = .mark .leftParen → Derives low (.names parameters) →
      closing.kind = .mark .rightParen → Derives high (.block body span) →
      Derives (word :: name :: opening :: (low ++ closing :: high))
        (.statement (.function (word.span.merge span) text parameters body))
  | enclosed {tokens : List Token} {statements : List Node} {span : Span} :
    Derives tokens (.block statements span) → Derives tokens (.statement (.block span statements))
  | branched {word opening closing : Token} {low high : List Token} {test thenBranch : Node} :
    word.kind = .keyword .ifWord → opening.kind = .mark .leftParen →
      Derives low (.expression test) → closing.kind = .mark .rightParen →
      Derives high (.statement thenBranch) →
      Derives (word :: opening :: (low ++ closing :: high))
        (.statement (.branch (word.span.merge thenBranch.span) test thenBranch none))
  | forked {word opening closing other : Token} {low middle high : List Token}
    {test thenBranch elseBranch : Node} :
    word.kind = .keyword .ifWord → opening.kind = .mark .leftParen →
      Derives low (.expression test) → closing.kind = .mark .rightParen →
      Derives middle (.statement thenBranch) → other.kind = .keyword .elseWord →
      Derives high (.statement elseBranch) →
      Derives (word :: opening :: (low ++ closing :: (middle ++ other :: high)))
        (.statement
          (.branch (word.span.merge elseBranch.span) test thenBranch (some elseBranch)))
  | looped {word opening closing : Token} {low high : List Token} {test body : Node} :
    word.kind = .keyword .whileWord → opening.kind = .mark .leftParen →
      Derives low (.expression test) → closing.kind = .mark .rightParen →
      Derives high (.statement body) →
      Derives (word :: opening :: (low ++ closing :: high))
        (.statement (.loop (word.span.merge body.span) test body none))
  | iterated {word opening closing : Token} {first middle last high : List Token}
    {start step : Option Node} {test body : Node} :
    word.kind = .keyword .forWord → opening.kind = .mark .leftParen →
      Derives first (.initializer start) → Derives middle (.condition test) →
      Derives last (.optional step) → closing.kind = .mark .rightParen →
      Derives high (.statement body) →
      Derives (word :: opening :: (first ++ (middle ++ (last ++ closing :: high))))
        (.statement (.block (word.span.merge body.span)
          (start.toList ++ [.loop (word.span.merge body.span) test body step])))
  | returned {word semicolon : Token} {tokens : List Token} {value : Option Node} :
    word.kind = .keyword .returnWord → Derives tokens (.optional value) →
      semicolon.kind = .mark .semicolon →
      Derives (word :: (tokens ++ [semicolon]))
        (.statement (.return (word.span.merge semicolon.span) value))
  | broken {word semicolon : Token} : word.kind = .keyword .breakWord →
      semicolon.kind = .mark .semicolon →
      Derives [word, semicolon] (.statement (.break (word.span.merge semicolon.span)))
  | continued {word semicolon : Token} : word.kind = .keyword .continueWord →
      semicolon.kind = .mark .semicolon →
      Derives [word, semicolon] (.statement (.continue (word.span.merge semicolon.span)))
  | ended {semicolon : Token} {tokens : List Token} {node : Node} :
    Derives tokens (.expression node) → semicolon.kind = .mark .semicolon →
      Derives (tokens ++ [semicolon]) (.statement node)
  | unended {tokens : List Token} {node : Node} : Derives tokens (.expression node) →
      Derives tokens (.statement node)
  | noInitializer {semicolon : Token} : semicolon.kind = .mark .semicolon →
      Derives [semicolon] (.initializer none)
  | declaredInitializer {tokens : List Token} {span : Span} {name : String} {value : Node} :
    Derives tokens (.statement (.declare span name value)) →
      Derives tokens (.initializer (some (.declare span name value)))
  | initializer {semicolon : Token} {tokens : List Token} {node : Node} :
    Derives tokens (.expression node) → semicolon.kind = .mark .semicolon →
      Derives (tokens ++ [semicolon]) (.initializer (some node))
  | noCondition {semicolon : Token} : semicolon.kind = .mark .semicolon →
      Derives [semicolon] (.condition (.boolean (Span.point semicolon.span.start) true))
  | condition {semicolon : Token} {tokens : List Token} {node : Node} :
    Derives tokens (.expression node) → semicolon.kind = .mark .semicolon →
      Derives (tokens ++ [semicolon]) (.condition node)
  | block {opening closing : Token} {tokens : List Token} {statements : List Node} :
    opening.kind = .mark .leftBrace → Derives tokens (.statements statements) →
      closing.kind = .mark .rightBrace →
      Derives (opening :: (tokens ++ [closing]))
        (.block statements (opening.span.merge closing.span))
  | noStatements : Derives [] (.statements [])
  | moreStatements {low high : List Token} {first : Node} {rest : List Node} :
    Derives low (.statement first) → Derives high (.statements rest) →
      Derives (low ++ high) (.statements (first :: rest))

namespace Reader

/-- Where an error is found: at the token in hand, after it, or at an expression that starts with
it. -/
inductive Refuses : SyntaxError → Reader → Prop where
  | unexpectedToken {reader : Reader} (expected : Expectation) :
    Refuses (.unexpectedToken expected reader.current.kind reader.current.span) reader
  | expectedExpression {reader : Reader} :
    Refuses (.expectedExpression reader.current.kind reader.current.span) reader
  | expectedIdentifier {reader : Reader} :
    Refuses (.expectedIdentifier reader.current.kind reader.current.span) reader
  | controlOutsideLoop {reader : Reader} {word : Keyword} :
    reader.current.kind = .keyword word →
      Refuses (.controlOutsideLoop word reader.current.span) reader
  | invalidTarget {reader after : Reader} {tokens : List Token} {target : Node} {fuel : Nat} :
    Gives tokens reader after → Groups tokens (.operand Operator.loosest target) →
      after.current.kind = .mark .equal → (∀ span name, target ≠ .reference span name) →
      Parse.operation fuel Operator.loosest reader = .done target after →
      Refuses (.invalidTarget target.span) reader
  | lexical {reader : Reader} {error : LexError} : reader.current.kind ≠ .endOfInput →
    reader.rest = .fault error → Refuses (.lexical error) reader

end Reader

namespace Parse

open Reader (Gives Refuses)

variable {α β : Type}

/-- A part gives tokens away; the value it yields, those tokens and the token in hand then meet a
condition. An error that is not `bad` is found after some tokens. -/
def Reads (good : List Token → α → Token → Prop) (bad : SyntaxError → Prop) (part : Parse α)
    (reader : Reader) : Prop :=
  (part reader).Meets
    (fun value after => ∃ tokens, Gives tokens reader after ∧ good tokens value after.current)
    fun error _ => bad error ∨ ∃ tokens middle, Gives tokens reader middle ∧ Refuses error middle

section Rules

variable {good : List Token → β → Token → Prop} {bad : SyntaxError → Prop} {reader : Reader}

theorem Reads.imp {better : List Token → β → Token → Prop} {part : Parse β}
    (reads : Reads good bad part reader)
    (implies : ∀ tokens value last, good tokens value last → better tokens value last) :
    Reads better bad part reader := by
  refine Outcome.Meets.imp reads ?_
  rintro value after ⟨tokens, gives, holds⟩
  exact ⟨tokens, gives, implies tokens value after.current holds⟩

theorem Reads.bind_of_done {middle : List Token → α → Token → Prop} {first : Parse α}
    {next : α → Parse β} (reads : Reads middle bad first reader)
    (goesOn : ∀ tokens value after, first reader = .done value after → Gives tokens reader after →
      middle tokens value after.current →
      Reads (fun more => good (tokens ++ more)) bad (next value) after) :
    Reads good bad (first >>= next) reader := by
  refine Action.meets_bind ((reads.and (first reader).meets_self).mono (fun _ _ found => found)
    fun _ _ found => found.1) ?_
  rintro value after ⟨⟨tokens, gives, holds⟩, done⟩
  refine (goesOn tokens value after done gives holds).mono ?_ ?_
  · rintro result last ⟨more, givesMore, holdsMore⟩
    exact ⟨tokens ++ more, gives.trans givesMore, holdsMore⟩
  · rintro error _ (isBad | ⟨more, last, givesMore, refuses⟩)
    · exact .inl isBad
    · exact .inr ⟨tokens ++ more, last, gives.trans givesMore, refuses⟩

theorem Reads.bind {middle : List Token → α → Token → Prop} {first : Parse α} {next : α → Parse β}
    (reads : Reads middle bad first reader)
    (goesOn : ∀ tokens value after, Gives tokens reader after → middle tokens value after.current →
      Reads (fun more => good (tokens ++ more)) bad (next value) after) :
    Reads good bad (first >>= next) reader :=
  reads.bind_of_done fun tokens value after _ gives => goesOn tokens value after gives

theorem Reads.of_refuses {part : Parse β}
    (reads : Reads good (fun error => bad error ∨ Refuses error reader) part reader) :
    Reads good bad part reader := by
  refine Outcome.Meets.mono reads (fun _ _ found => found) ?_
  rintro error _ ((isBad | refuses) | found)
  · exact .inl isBad
  · exact .inr ⟨[], reader, .refl reader, refuses⟩
  · exact .inr found

theorem reads_pure {value : β} (holds : good [] value reader.current) :
    Reads good bad (pure value) reader := ⟨[], .refl reader, holds⟩

theorem reads_fail {error : SyntaxError} (refuses : Refuses error reader) :
    Reads good bad (Action.fail error) reader := .inr ⟨[], reader, .refl reader, refuses⟩

theorem reads_cutOff : Reads good bad Action.cutOff reader := trivial

theorem reads_current_bind {next : Token → Parse β} :
    Reads good bad (current >>= next) reader ↔ Reads good bad (next reader.current) reader :=
  Iff.rfl

theorem reads_sees_bind {kind : Kind} {next : Bool → Parse β} :
    Reads good bad (sees kind >>= next) reader ↔
      Reads good bad (next (reader.current.kind == kind)) reader := Iff.rfl

theorem reads_inLoop_bind {next : Bool → Parse β} :
    Reads good bad (inLoop >>= next) reader ↔
      Reads good bad (next (reader.loops != 0)) reader := Iff.rfl

theorem reads_advance (goesOn : reader.current.kind ≠ .endOfInput) :
    Reads (fun tokens token _ => tokens = [token] ∧ token = reader.current) bad advance reader := by
  unfold Reads
  cases given : advance reader with
  | done token after =>
    have same := eq_current_of_advance given
    exact ⟨[token], .single goesOn given, rfl, same⟩
  | failed error after =>
    refine .inr ⟨[], reader, .refl reader, ?_⟩
    unfold advance at given
    rw [if_neg goesOn] at given
    split at given
    · cases given
    · cases given
    · next fault =>
      cases given
      exact .lexical goesOn fault
    · cases given
  | cutOff => trivial

theorem reads_advance_bind {kind : Kind} {next : Token → Parse β}
    (seen : reader.current.kind = kind) (text : kind ≠ .endOfInput)
    (goesOn : ∀ after,
      Reads (fun more => good (reader.current :: more)) bad (next reader.current) after) :
    Reads good bad (advance >>= next) reader := by
  refine (reads_advance (seen ▸ text)).bind ?_
  rintro _ _ after _ ⟨rfl, rfl⟩
  exact goesOn after

theorem reads_expect_bind {symbol : Mark} {expected : Expectation} {next : Token → Parse β}
    (goesOn : reader.current.kind = .mark symbol → ∀ after,
      Reads (fun more => good (reader.current :: more)) bad (next reader.current) after) :
    Reads good bad (expect symbol expected >>= next) reader := by
  have reads : Reads (fun tokens token _ => token.kind = .mark symbol ∧ tokens = [token] ∧
      token = reader.current) bad (expect symbol expected) reader := by
    unfold expect
    rw [reads_sees_bind]
    split
    · next seen =>
      have kind := beq_iff_eq.mp seen
      refine (reads_advance (by simp [kind])).imp ?_
      rintro tokens token _ ⟨rfl, rfl⟩
      exact ⟨kind, rfl, rfl⟩
    · rw [reads_current_bind]
      exact reads_fail (.unexpectedToken expected)
  refine reads.bind ?_
  rintro _ _ after _ ⟨kind, rfl, rfl⟩
  exact goesOn kind after

theorem reads_identifier_bind {next : String → Parse β}
    (goesOn : ∀ name, reader.current.kind = .identifier name → ∀ after,
      Reads (fun more => good (reader.current :: more)) bad (next name) after) :
    Reads good bad (identifier >>= next) reader := by
  have reads : Reads (fun tokens name _ => reader.current.kind = .identifier name ∧
      tokens = [reader.current]) bad identifier reader := by
    unfold identifier
    rw [reads_current_bind]
    split
    · next name kind => exact reads_advance_bind kind (by simp) fun _ => reads_pure ⟨kind, rfl⟩
    · exact reads_fail .expectedIdentifier
  refine reads.bind ?_
  rintro _ name after _ ⟨kind, rfl⟩
  exact goesOn name kind after

theorem reads_around {before after : Reader → Reader} {part : Parse β}
    (reads : Reads good bad part (before reader))
    (current : ∀ reader, (before reader).current = reader.current ∧
      (after reader).current = reader.current)
    (rest : ∀ reader, (before reader).rest = reader.rest ∧ (after reader).rest = reader.rest) :
    Reads good bad (Action.around before after part) reader := by
  refine Action.meets_around (Outcome.Meets.mono reads ?_ ?_)
  · rintro value reached ⟨tokens, gives, holds⟩
    have start := gives.of_same (current reader).1.symm (rest reader).1.symm
    refine ⟨tokens, ?_, ?_⟩
    · have whole := start.trans (.nil (current reached).2 (rest reached).2)
      rwa [List.append_nil] at whole
    · rw [(current reached).2]
      exact holds
  · rintro error _ (isBad | ⟨tokens, middle, gives, refuses⟩)
    · exact .inl isBad
    · exact .inr ⟨tokens, middle, gives.of_same (current reader).1.symm (rest reader).1.symm,
        refuses⟩

end Rules

/-! Expressions -/

variable {bad : SyntaxError → Prop}

/-- A part gives away the tokens of an operand, and stops where that does not go on. -/
def ReadsOperand (level : Nat) (bad : SyntaxError → Prop) (part : Parse Node) (reader : Reader) :
    Prop :=
  Reads (fun tokens node last => Groups tokens (.operand level node) ∧ last.kind.Stops level) bad part
    reader

structure ExpressionReads (fuel : Nat) : Prop where
  expression : ∀ reader {bad}, ReadsOperand 0 bad (expression fuel) reader
  operation : ∀ least reader {bad}, Operator.loosest ≤ least → least ≤ 7 →
    ReadsOperand least bad (operation fuel least) reader
  climb : ∀ least left before reader {bad}, Operator.loosest ≤ least →
    Groups before (.operand least left) →
    (∀ precedence operator, Operator.ofKind? reader.current.kind = some (precedence, operator) →
      Groups before (.operand precedence left)) →
    reader.current.kind ≠ .mark .leftParen →
    Reads (fun tokens node last => Groups (before ++ tokens) (.operand least node) ∧
      last.kind.Stops least) bad (climb fuel least left) reader
  unary : ∀ reader {bad}, ReadsOperand 7 bad (unary fuel) reader
  call : ∀ reader {bad}, ReadsOperand 8 bad (call fuel) reader
  calls : ∀ callee before reader {bad}, Groups before (.operand 8 callee) →
    Reads (fun tokens node last => Groups (before ++ tokens) (.operand 8 node) ∧ last.kind.Stops 8)
      bad (calls fuel callee) reader
  arguments : ∀ reader {bad},
    Reads (fun tokens nodes _ => Groups tokens (.arguments nodes)) bad (arguments fuel) reader
  someArguments : ∀ reader {bad},
    Reads (fun tokens nodes _ => Groups tokens (.arguments nodes) ∧ nodes ≠ []) bad
      (someArguments fuel) reader
  primary : ∀ reader {bad},
    Reads (fun tokens node _ => Groups tokens (.operand 8 node)) bad (primary fuel) reader

theorem reads_assignment {equal : Token} {low high : List Token} {target value : Node} {fuel : Nat}
    {reader after last : Reader} (done : operation fuel Operator.loosest reader = .done target after)
    (gives : Gives low reader after) (left : Groups low (.operand Operator.loosest target))
    (seen : after.current.kind = .mark .equal) (same : equal = after.current)
    (right : Groups high (.operand 0 value)) (stops : last.current.kind.Stops 0) :
    Reads (fun tokens node last => Groups (low ++ equal :: (high ++ tokens)) (.operand 0 node) ∧
        last.kind.Stops 0)
      (fun error => bad error ∨ Refuses error reader) (assignment target value) last := by
  unfold assignment
  split
  · refine reads_pure ⟨?_, stops⟩
    rw [List.append_nil]
    exact .assigned left (by rw [same, seen]) right
  · next other =>
    refine .inl (.inr (.invalidTarget gives left seen ?_ done))
    exact fun span name isReference => other span name isReference

namespace ExpressionReads

variable {fuel : Nat} {reader : Reader}

theorem expression_succ (reads : ExpressionReads fuel) :
    ReadsOperand 0 bad (Parse.expression (fuel + 1)) reader := by
  unfold Parse.expression
  have operation : ReadsOperand Operator.loosest (fun error => bad error ∨ Refuses error reader)
      _ reader := reads.operation Operator.loosest reader (Nat.le_refl _) (by decide)
  -- a target that is none is an error at this reader, found only after the value
  refine Reads.of_refuses (operation.bind_of_done fun low target after done gives left => ?_)
  rw [reads_sees_bind]
  split
  · next seen =>
    have kind := beq_iff_eq.mp seen
    refine reads_advance_bind kind (by simp) fun middle => ?_
    refine (reads.expression middle).bind fun high value last _ right => ?_
    exact reads_assignment done gives left.1 kind rfl right.1 right.2
  · next unseen =>
    refine reads_pure ⟨?_, left.2.whole fun equal => unseen (beq_iff_eq.mpr equal)⟩
    rw [List.append_nil]
    exact left.1.mono (Nat.zero_le _)

theorem operation_succ (reads : ExpressionReads fuel) {least : Nat}
    (loose : Operator.loosest ≤ least) (tight : least ≤ 7) :
    ReadsOperand least bad (Parse.operation (fuel + 1) least) reader := by
  unfold Parse.operation
  refine (reads.unary reader).bind fun low left after _ found => ?_
  refine reads.climb least left low after loose (found.1.mono tight) ?_ found.2.noCall
  intro precedence operator known
  have bounds := Operator.precedence_bounds known
  exact found.1.mono (by omega)

theorem climb_operator (reads : ExpressionReads fuel) {least precedence : Nat}
    {operator : Operator} {left : Node} {before : List Token}
    (loose : Operator.loosest ≤ least) (tight : least ≤ precedence)
    (known : Operator.ofKind? reader.current.kind = some (precedence, operator))
    (level : Groups before (.operand precedence left)) :
    Reads (fun tokens node last => Groups (before ++ tokens) (.operand least node) ∧
      last.kind.Stops least) bad
      (advance >>= fun _ => Parse.operation fuel (precedence + 1) >>= fun right =>
        Parse.climb fuel least (operator.join left right)) reader := by
  have bounds := Operator.precedence_bounds known
  refine reads_advance_bind rfl (ne_endOfInput_of_ofKind? known) fun middle => ?_
  refine (reads.operation (precedence + 1) middle (by omega) (by omega)).bind
    fun high right last _ found => ?_
  -- what is joined holds together as tightly as its operator, and none tighter follows
  have joined : Groups _ (.operand precedence _) := .joined (Nat.le_refl _) level known found.1
  refine (reads.climb least _ _ last loose (joined.mono (by omega)) ?_ found.2.noCall).imp ?_
  · intro other next same
    exact joined.mono (Nat.lt_succ_iff.1 (found.2.looser other next same))
  · intro tokens node _ groups
    rwa [List.append_assoc] at groups

theorem climb_succ (reads : ExpressionReads fuel) {least : Nat} {left : Node}
    {before : List Token} (loose : Operator.loosest ≤ least)
    (sound : Groups before (.operand least left))
    (level : ∀ precedence operator,
      Operator.ofKind? reader.current.kind = some (precedence, operator) →
        Groups before (.operand precedence left))
    (noCall : reader.current.kind ≠ .mark .leftParen) :
    Reads (fun tokens node last => Groups (before ++ tokens) (.operand least node) ∧
      last.kind.Stops least) bad (Parse.climb (fuel + 1) least left) reader := by
  unfold Parse.climb
  rw [reads_current_bind]
  -- where climbing stops, what is on the left is the whole operand
  have stays (looser : ∀ precedence operator,
      Operator.ofKind? reader.current.kind = some (precedence, operator) → precedence < least) :
      Reads (fun tokens node last => Groups (before ++ tokens) (.operand least node) ∧
        last.kind.Stops least) bad (pure left) reader := by
    refine reads_pure ⟨?_, noCall, looser, fun same => ?_⟩
    · rw [List.append_nil]
      exact sound
    · rw [same] at loose
      cases loose
  split
  · next none =>
    refine stays fun precedence operator known => ?_
    rw [none] at known
    cases known
  · next precedence operator known =>
    split
    · next looser =>
      refine stays fun other found same => ?_
      rw [known] at same
      cases same
      exact looser
    · next tight =>
      exact reads.climb_operator loose (Nat.not_lt.mp tight) known (level precedence operator known)

theorem unary_succ (reads : ExpressionReads fuel) :
    ReadsOperand 7 bad (Parse.unary (fuel + 1)) reader := by
  unfold ReadsOperand Parse.unary
  rw [reads_current_bind]
  split
  · refine (reads.call reader).imp fun tokens node last found => ?_
    exact ⟨found.1.mono (by decide), .of_noCall found.2.noCall (Nat.le_refl 7)⟩
  · next op known =>
    refine reads_advance_bind rfl (ne_endOfInput_of_unary? known) fun middle => ?_
    refine (reads.unary middle).bind fun tokens operand last _ found => reads_pure ?_
    rw [List.append_nil]
    exact ⟨.signed (Nat.le_refl 7) known found.1, found.2⟩

theorem calls_succ (reads : ExpressionReads fuel) {callee : Node} {before : List Token}
    (sound : Groups before (.operand 8 callee)) :
    Reads (fun tokens node last => Groups (before ++ tokens) (.operand 8 node) ∧ last.kind.Stops 8)
      bad (Parse.calls (fuel + 1) callee) reader := by
  unfold Parse.calls
  rw [reads_sees_bind]
  split
  · next seen =>
    have kind := beq_iff_eq.mp seen
    refine reads_advance_bind kind (by simp) fun middle => ?_
    refine (reads.arguments middle).bind fun inner found after _ soundArguments => ?_
    refine reads_expect_bind fun closing last => ?_
    have called : Groups _ (.operand 8 _) :=
      .called (Nat.le_refl 8) sound kind soundArguments closing
    refine (reads.calls _ _ last called).imp ?_
    intro tokens node _ groups
    simpa only [List.append_assoc, List.cons_append, List.nil_append] using groups
  · next unseen =>
    refine reads_pure ⟨?_, .of_noCall (fun same => unseen (beq_iff_eq.mpr same)) (by decide)⟩
    rw [List.append_nil]
    exact sound

theorem someArguments_succ (reads : ExpressionReads fuel) :
    Reads (fun tokens nodes _ => Groups tokens (.arguments nodes) ∧ nodes ≠ []) bad
      (Parse.someArguments (fuel + 1)) reader := by
  unfold Parse.someArguments
  refine (reads.expression reader).bind fun low first after _ sound => ?_
  rw [reads_sees_bind]
  split
  · next seen =>
    have kind := beq_iff_eq.mp seen
    refine reads_advance_bind kind (by simp) fun middle => ?_
    refine (reads.someArguments middle).bind fun high rest last _ found => reads_pure ?_
    rw [List.append_nil]
    exact ⟨.moreArguments sound.1 kind found.1 found.2, List.cons_ne_nil _ _⟩
  · refine reads_pure ?_
    rw [List.append_nil]
    exact ⟨.lastArgument sound.1, List.cons_ne_nil _ _⟩

theorem primary_succ (reads : ExpressionReads fuel) :
    Reads (fun tokens node _ => Groups tokens (.operand 8 node)) bad (Parse.primary (fuel + 1))
      reader := by
  unfold Parse.primary
  rw [reads_current_bind]
  split
  · next node known =>
    refine reads_advance_bind rfl (ne_endOfInput_of_atom? known) fun _ => ?_
    exact reads_pure (.atom known)
  · split
    · next kind =>
      refine reads_advance_bind kind (by simp) fun middle => ?_
      refine (reads.expression middle).bind fun tokens inner after _ sound => ?_
      refine reads_expect_bind fun closing last => reads_pure ?_
      exact .grouped kind sound.1 closing
    · exact reads_fail .expectedExpression

end ExpressionReads

theorem expressionReads (fuel : Nat) : ExpressionReads fuel := by
  induction fuel with
  | zero => constructor <;> intros <;> exact reads_cutOff
  -- one part after the other, with all of them known for one step less
  | succ fuel ih => exact {
      expression _ _ := ih.expression_succ
      operation _ _ _ loose tight := ih.operation_succ loose tight
      climb _ _ _ _ _ loose sound level noCall := ih.climb_succ loose sound level noCall
      unary _ _ := ih.unary_succ
      call reader _ := (ih.primary reader).bind fun low callee after _ sound =>
        ih.calls callee low after sound
      calls _ _ _ _ sound := ih.calls_succ sound
      arguments reader bad := by
        unfold Parse.arguments
        rw [reads_sees_bind]
        split
        · exact reads_pure .noArguments
        · exact (ih.someArguments reader).imp fun _ _ _ found => found.1
      someArguments _ _ := ih.someArguments_succ
      primary _ _ := ih.primary_succ }

theorem reads_expression (fuel : Nat) (reader : Reader) :
    Reads (fun tokens node _ => Derives tokens (.expression node)) bad (expression fuel) reader :=
  ((expressionReads fuel).expression reader).imp fun _ _ _ found => .expression found.1

/-! Statements -/

theorem reads_declaration (fuel : Nat) {reader : Reader}
    (word : reader.current.kind = .keyword .letWord) :
    Reads (fun tokens node _ => Derives tokens (.statement node) ∧
      ∃ span name value, node = .declare span name value) bad (declaration fuel) reader := by
  unfold declaration
  refine reads_advance_bind word (by simp) fun _ => ?_
  refine reads_identifier_bind fun text name _ => ?_
  refine reads_expect_bind fun equal after => ?_
  refine (reads_expression fuel after).bind fun tokens value _ _ sound => ?_
  refine reads_expect_bind fun semicolon _ => reads_pure ?_
  exact ⟨.declared word name equal sound semicolon, _, _, _, rfl⟩

theorem reads_someParameters (fuel : Nat) (reader : Reader) :
    Reads (fun tokens names _ => Derives tokens (.names names) ∧ names ≠ []) bad
      (someParameters fuel) reader := by
  induction fuel generalizing reader with
  | zero => exact reads_cutOff
  | succ fuel ih =>
    unfold someParameters
    refine reads_identifier_bind fun first name after => ?_
    rw [reads_sees_bind]
    split
    · next seen =>
      have comma := beq_iff_eq.mp seen
      refine reads_advance_bind comma (by simp) fun middle => ?_
      refine (ih middle).bind fun tokens rest _ _ found => reads_pure ?_
      rw [List.append_nil]
      exact ⟨.moreNames name comma found.1 found.2, List.cons_ne_nil _ _⟩
    · exact reads_pure ⟨.lastName name, List.cons_ne_nil _ _⟩

theorem reads_parameters (fuel : Nat) (reader : Reader) :
    Reads (fun tokens names _ => Derives tokens (.names names)) bad (parameters fuel) reader := by
  unfold parameters
  rw [reads_sees_bind]
  split
  · exact reads_pure .noNames
  · exact (reads_someParameters fuel reader).imp fun _ _ _ found => found.1

theorem reads_condition_bind {good : List Token → β → Token → Prop} {fuel : Nat} {word : Keyword}
    {reader : Reader} {next : Node → Parse β}
    (goesOn : ∀ opening tokens closing test after, opening.kind = .mark .leftParen →
      Derives tokens (.expression test) → closing.kind = .mark .rightParen →
      Reads (fun more => good (opening :: (tokens ++ closing :: more))) bad (next test) after) :
    Reads good bad (condition fuel word >>= next) reader := by
  unfold condition
  simp only [bind_assoc, pure_bind]
  refine reads_expect_bind fun opening after => ?_
  refine (reads_expression fuel after).bind fun tokens test last _ sound => ?_
  exact reads_expect_bind fun closing _ => goesOn _ _ _ _ _ opening sound closing

theorem reads_someExpression (fuel : Nat) (reader : Reader) :
    Reads (fun tokens value _ => Derives tokens (.optional value)) bad
      (some <$> expression fuel) reader := by
  refine (reads_expression fuel reader).bind fun tokens node _ _ sound => reads_pure ?_
  rw [List.append_nil]
  exact .present sound

theorem reads_returned (fuel : Nat) (reader : Reader) :
    Reads (fun tokens value _ => Derives tokens (.optional value)) bad (returned fuel) reader := by
  unfold returned
  rw [reads_sees_bind]
  split
  · exact reads_pure .absent
  · exact reads_someExpression fuel reader

theorem reads_increment (fuel : Nat) (reader : Reader) :
    Reads (fun tokens value _ => Derives tokens (.optional value)) bad (increment fuel) reader := by
  unfold increment
  rw [reads_sees_bind]
  split
  · exact reads_pure .absent
  · exact reads_someExpression fuel reader

theorem reads_initializer (fuel : Nat) (reader : Reader) :
    Reads (fun tokens value _ => Derives tokens (.initializer value)) bad
      (initializer fuel) reader := by
  unfold initializer
  rw [reads_current_bind]
  split
  · next semicolon =>
    exact reads_advance_bind semicolon (by simp) fun _ => reads_pure (.noInitializer semicolon)
  · next word =>
    refine (reads_declaration fuel word).bind fun tokens node _ _ found => reads_pure ?_
    obtain ⟨sound, span, name, value, rfl⟩ := found
    rw [List.append_nil]
    exact .declaredInitializer sound
  · refine (reads_expression fuel reader).bind fun tokens node _ _ sound => ?_
    exact reads_expect_bind fun semicolon _ => reads_pure (.initializer sound semicolon)

theorem reads_loopCondition_bind {good : List Token → β → Token → Prop} {fuel : Nat}
    {expected : Expectation} {reader : Reader} {next : Node → Parse β}
    (goesOn : ∀ tokens test after, Derives tokens (.condition test) →
      Reads (fun more => good (tokens ++ more)) bad (next test) after) :
    Reads good bad
      (loopCondition fuel >>= fun test => expect .semicolon expected >>= fun _ => next test)
      reader := by
  unfold loopCondition
  simp only [bind_assoc]
  rw [reads_current_bind]
  split
  · exact reads_expect_bind fun semicolon after => goesOn _ _ after (.noCondition semicolon)
  · refine (reads_expression fuel reader).bind fun tokens test after _ sound => ?_
    refine reads_expect_bind fun semicolon last => ?_
    have reads := goesOn _ _ last (.condition sound semicolon)
    simp only [List.append_assoc, List.singleton_append] at reads
    exact reads

theorem reads_returning (fuel : Nat) {reader : Reader}
    (word : reader.current.kind = .keyword .returnWord) :
    Reads (fun tokens node _ => Derives tokens (.statement node)) bad (returning fuel) reader := by
  unfold returning
  refine reads_advance_bind word (by simp) fun after => ?_
  refine (reads_returned fuel after).bind fun tokens value _ _ sound => ?_
  exact reads_expect_bind fun semicolon _ => reads_pure (.returned word sound semicolon)

theorem reads_loopControl {word : Keyword} {node : Span → Node} {reader : Reader}
    (seen : reader.current.kind = .keyword word)
    (sound : ∀ found semicolon : Token, found.kind = .keyword word →
      semicolon.kind = .mark .semicolon →
      Derives [found, semicolon] (.statement (node (found.span.merge semicolon.span)))) :
    Reads (fun tokens node _ => Derives tokens (.statement node)) bad
      (loopControl word node) reader := by
  unfold loopControl
  rw [reads_inLoop_bind]
  split
  · refine reads_advance_bind seen (by simp) fun after => ?_
    exact reads_expect_bind fun semicolon _ => reads_pure (sound _ _ seen semicolon)
  · rw [reads_current_bind]
    exact reads_fail (.controlOutsideLoop seen)

theorem reads_expressionStatement (fuel : Nat) (reader : Reader) :
    Reads (fun tokens node _ => Derives tokens (.statement node)) bad
      (expressionStatement fuel) reader := by
  unfold expressionStatement
  refine (reads_expression fuel reader).bind fun tokens node after _ sound => ?_
  rw [reads_sees_bind]
  split
  · refine reads_pure ?_
    rw [List.append_nil]
    exact .unended sound
  · exact reads_expect_bind fun semicolon _ => reads_pure (.ended sound semicolon)

structure StatementReads (fuel : Nat) : Prop where
  statement : ∀ reader {bad},
    Reads (fun tokens node _ => Derives tokens (.statement node)) bad (statement fuel) reader
  definition : ∀ reader {bad}, reader.current.kind = .keyword .fnWord →
    Reads (fun tokens node _ => Derives tokens (.statement node)) bad (definition fuel) reader
  block : ∀ reader {bad},
    Reads (fun tokens found _ => Derives tokens (.block found.1 found.2)) bad (block fuel) reader
  sequence : ∀ inBraces reader {bad},
    Reads (fun tokens nodes last => Derives tokens (.statements nodes) ∧
      (inBraces = false → last.kind = .endOfInput)) bad (sequence fuel inBraces) reader
  branch : ∀ reader {bad}, reader.current.kind = .keyword .ifWord →
    Reads (fun tokens node _ => Derives tokens (.statement node)) bad (branch fuel) reader
  whileLoop : ∀ reader {bad}, reader.current.kind = .keyword .whileWord →
    Reads (fun tokens node _ => Derives tokens (.statement node)) bad (whileLoop fuel) reader
  forLoop : ∀ reader {bad}, reader.current.kind = .keyword .forWord →
    Reads (fun tokens node _ => Derives tokens (.statement node)) bad (forLoop fuel) reader

namespace StatementReads

variable {fuel : Nat} {reader : Reader}

theorem body (reads : StatementReads fuel) (reader : Reader) :
    Reads (fun tokens node _ => Derives tokens (.statement node)) bad
      (insideLoop (Parse.statement fuel)) reader :=
  reads_around (reads.statement _) (fun _ => ⟨rfl, rfl⟩) fun _ => ⟨rfl, rfl⟩

theorem statement_succ (reads : StatementReads fuel) :
    Reads (fun tokens node _ => Derives tokens (.statement node)) bad (Parse.statement (fuel + 1))
      reader := by
  unfold Parse.statement
  rw [reads_current_bind]
  split
  · next word => exact (reads_declaration fuel word).imp fun _ _ _ found => found.1
  · next word => exact reads.definition reader word
  · next word => exact reads.branch reader word
  · next word => exact reads.whileLoop reader word
  · next word => exact reads.forLoop reader word
  · next word => exact reads_returning fuel word
  · next word => exact reads_loopControl word fun _ _ => .broken
  · next word => exact reads_loopControl word fun _ _ => .continued
  · refine (reads.block reader).bind fun tokens found _ _ sound => reads_pure ?_
    rw [List.append_nil]
    exact .enclosed sound
  · exact reads_expressionStatement fuel reader

theorem definition_succ (reads : StatementReads fuel)
    (word : reader.current.kind = .keyword .fnWord) :
    Reads (fun tokens node _ => Derives tokens (.statement node)) bad
      (Parse.definition (fuel + 1)) reader := by
  unfold Parse.definition
  refine reads_advance_bind word (by simp) fun _ => ?_
  refine reads_identifier_bind fun text name _ => ?_
  refine reads_expect_bind fun opening after => ?_
  refine (reads_parameters fuel after).bind fun low names _ _ soundNames => ?_
  refine reads_expect_bind fun closing last => ?_
  have body : Reads (fun tokens found _ => Derives tokens (.block found.1 found.2)) bad
      (outsideLoops (Parse.block fuel)) last :=
    reads_around (reads.block _) (fun _ => ⟨rfl, rfl⟩) fun _ => ⟨rfl, rfl⟩
  refine body.bind fun high found _ _ sound => reads_pure ?_
  rw [List.append_nil]
  exact .defined word name opening soundNames closing sound

theorem sequence_succ (reads : StatementReads fuel) (inBraces : Bool) :
    Reads (fun tokens nodes last => Derives tokens (.statements nodes) ∧
      (inBraces = false → last.kind = .endOfInput)) bad (Parse.sequence (fuel + 1) inBraces)
      reader := by
  unfold Parse.sequence
  rw [reads_current_bind]
  split
  · next stops =>
    refine reads_pure ⟨.noStatements, fun whole => ?_⟩
    rw [whole] at stops
    simpa using stops
  · refine (reads.statement reader).bind fun low first after _ sound => ?_
    refine (reads.sequence inBraces after).bind fun high rest _ _ found => reads_pure ?_
    rw [List.append_nil]
    exact ⟨.moreStatements sound found.1, found.2⟩

theorem branch_succ (reads : StatementReads fuel)
    (word : reader.current.kind = .keyword .ifWord) :
    Reads (fun tokens node _ => Derives tokens (.statement node)) bad (Parse.branch (fuel + 1))
      reader := by
  unfold Parse.branch
  refine reads_advance_bind word (by simp) fun after => ?_
  refine reads_condition_bind fun _ low _ test after opening soundTest closing => ?_
  refine (reads.statement after).bind fun middle thenBranch last _ soundThen => ?_
  rw [reads_sees_bind]
  split
  · next seen =>
    have other := beq_iff_eq.mp seen
    refine reads_advance_bind other (by simp) fun after => ?_
    refine (reads.statement after).bind fun high elseBranch _ _ soundElse => reads_pure ?_
    rw [List.append_nil]
    exact .forked word opening soundTest closing soundThen other soundElse
  · refine reads_pure ?_
    rw [List.append_nil]
    exact .branched word opening soundTest closing soundThen

theorem whileLoop_succ (reads : StatementReads fuel)
    (word : reader.current.kind = .keyword .whileWord) :
    Reads (fun tokens node _ => Derives tokens (.statement node)) bad (Parse.whileLoop (fuel + 1))
      reader := by
  unfold Parse.whileLoop
  refine reads_advance_bind word (by simp) fun after => ?_
  refine reads_condition_bind fun _ low _ test after opening soundTest closing => ?_
  refine (reads.body after).bind fun high body _ _ soundBody => reads_pure ?_
  rw [List.append_nil]
  exact .looped word opening soundTest closing soundBody

theorem forLoop_succ (reads : StatementReads fuel)
    (word : reader.current.kind = .keyword .forWord) :
    Reads (fun tokens node _ => Derives tokens (.statement node)) bad (Parse.forLoop (fuel + 1))
      reader := by
  unfold Parse.forLoop
  refine reads_advance_bind word (by simp) fun _ => ?_
  refine reads_expect_bind fun opening after => ?_
  refine (reads_initializer fuel after).bind fun first start _ _ soundStart => ?_
  refine reads_loopCondition_bind fun middle test after soundTest => ?_
  refine (reads_increment fuel after).bind fun last step _ _ soundStep => ?_
  refine reads_expect_bind fun closing after => ?_
  refine (reads.body after).bind fun high body _ _ soundBody => reads_pure ?_
  rw [List.append_nil]
  exact .iterated word opening soundStart soundTest soundStep closing soundBody

end StatementReads

theorem statementReads (fuel : Nat) : StatementReads fuel := by
  induction fuel with
  | zero => constructor <;> intros <;> exact reads_cutOff
  | succ fuel ih => exact {
      statement _ _ := ih.statement_succ
      definition _ _ word := ih.definition_succ word
      block reader bad := by
        unfold Parse.block
        refine reads_expect_bind fun opening after => ?_
        refine (ih.sequence true after).bind fun tokens statements _ _ sound => ?_
        exact reads_expect_bind fun closing _ => reads_pure (.block opening sound.1 closing)
      sequence inBraces _ _ := ih.sequence_succ inBraces
      branch _ _ word := ih.branch_succ word
      whileLoop _ _ word := ih.whileLoop_succ word
      forLoop _ _ word := ih.forLoop_succ word }

theorem reads_wholeProgram (fuel : Nat) (reader : Reader) :
    Reads (fun tokens tree last => last.kind = .endOfInput ∧
        ∃ statements, tree = .program ⟨0, last.span.stop⟩ statements ∧
          Derives tokens (.statements statements))
      (fun _ => False) (wholeProgram fuel) reader := by
  unfold wholeProgram
  refine ((statementReads fuel).sequence false reader).bind fun tokens statements after _ found => ?_
  rw [reads_current_bind]
  refine reads_pure ⟨found.2 rfl, statements, rfl, ?_⟩
  rw [List.append_nil]
  exact found.1

end Parse

open Reader (Gives Refuses)

theorem derives_of_readProgram {source : List Char} {tree : Node}
    (read : readProgram source = .ok tree) :
    ∃ tokens offset statements,
      Stream.scan 0 source = Stream.after tokens (.ending offset) ∧
      tree = .program ⟨0, offset⟩ statements ∧ Derives tokens (.statements statements) := by
  unfold readProgram at read
  cases started : Reader.start source with
  | error error =>
    rw [started] at read
    cases read
  | ok reader =>
    rw [started] at read
    obtain ⟨whole, ahead⟩ := Reader.whole_start started
    have done : Parse.wholeProgram reader.fuel reader = .done tree reader.program.2 :=
      (Outcome.result_eq_ok_iff reader.program_ends).mp (Prod.ext read rfl)
    have reads : Parse.Reads _ _ _ _ := Parse.reads_wholeProgram reader.fuel reader
    unfold Parse.Reads at reads
    rw [done] at reads
    obtain ⟨tokens, gives, ends, statements, rfl, derives⟩ := reads
    obtain ⟨wholeAfter, same⟩ := gives.whole whole
    refine ⟨tokens, _, statements, ?_, rfl, derives⟩
    rw [← ahead, same, Reader.ahead, if_pos ends]

/-- An error is the fault that a source starts with, or it is found after some of its tokens. -/
theorem refuses_of_readProgram {source : List Char} {error : SyntaxError}
    (read : readProgram source = .error error) :
    (∃ fault, Stream.scan 0 source = .fault fault ∧ error = .lexical fault) ∨
      ∃ tokens middle, Stream.scan 0 source = Stream.after tokens middle.ahead ∧
        middle.Whole ∧ Refuses error middle := by
  unfold readProgram at read
  cases started : Reader.start source with
  | error fault =>
    rw [started] at read
    cases read
    exact .inl ⟨fault, Reader.start_eq_error_iff.1 started, rfl⟩
  | ok reader =>
    rw [started] at read
    right
    obtain ⟨whole, ahead⟩ := Reader.whole_start started
    have failed : Parse.wholeProgram reader.fuel reader = .failed error reader.program.2 :=
      (Outcome.result_eq_error_iff reader.program_ends).mp (Prod.ext read rfl)
    have reads : Parse.Reads _ _ _ _ := Parse.reads_wholeProgram reader.fuel reader
    unfold Parse.Reads at reads
    rw [failed] at reads
    obtain ⟨tokens, middle, gives, refuses⟩ := reads.resolve_left not_false
    obtain ⟨wholeAfter, same⟩ := gives.whole whole
    exact ⟨tokens, middle, ahead.symm.trans same, wholeAfter, refuses⟩

end Scriptlet
