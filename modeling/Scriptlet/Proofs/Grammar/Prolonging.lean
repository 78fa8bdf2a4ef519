import Scriptlet.Proofs.Grammar.Derivation
import Scriptlet.Proofs.Grammar.Regrouping
import Scriptlet.Proofs.Grammar.Soundness

/-! A source that ends and one that has the same tokens, but goes on behind them, are read alike, as
long as the last of these tokens ends a statement.
-/

set_option autoImplicit false

namespace Scriptlet

/-- A kind of token that ends statements. -/
def Kind.Closes (kind : Kind) : Prop := kind = .mark .semicolon ∨ kind = .mark .rightBrace

theorem Groups.exists_last {tokens : List Token} {level : Nat} {node : Node}
    (groups : Groups tokens (.operand level node)) :
    ∃ front last, tokens = front ++ [last] ∧ ¬ last.kind.Closes := by
  generalize same : Grouping.operand level node = grouping at groups
  induction groups generalizing level node with
  | @atom _ token _ known =>
    refine ⟨[], token, rfl, ?_⟩
    unfold Parse.atom? at known
    rintro (semicolon | rightBrace)
    · rw [semicolon] at known
      cases known
    · rw [rightBrace] at known
      cases known
  | @grouped _ opening closing tokens _ _ _ isClosing =>
    exact ⟨opening :: tokens, closing, rfl, by simp [Kind.Closes, isClosing]⟩
  | @signed _ sign _ _ _ _ _ _ ih =>
    obtain ⟨front, last, rfl, goesOn⟩ := ih rfl
    exact ⟨sign :: front, last, rfl, goesOn⟩
  | @joined _ _ between low _ _ _ _ _ _ _ _ _ ih | @assigned between low _ _ _ _ _ _ _ _ ih =>
    obtain ⟨front, last, rfl, goesOn⟩ := ih rfl
    exact ⟨low ++ between :: front, last, by simp, goesOn⟩
  | @called _ opening closing low inner _ _ _ _ _ _ isClosing =>
    exact ⟨low ++ opening :: inner, closing, by simp, by simp [Kind.Closes, isClosing]⟩
  | noArguments | lastArgument | moreArguments => cases same

namespace Stream

theorem exists_of_after_eq {tokens low : List Token} {stream : Stream} {stop : Nat}
    (same : after tokens (.ending stop) = after low stream) :
    ∃ high, tokens = low ++ high ∧ stream = after high (.ending stop) := by
  induction low generalizing tokens with
  | nil => exact ⟨tokens, rfl, same.symm⟩
  | cons head low ih =>
    cases tokens with
    | nil => cases same
    | cons token tokens =>
      obtain ⟨rfl, rest⟩ := Stream.token.inj same
      obtain ⟨high, rfl, left⟩ := ih rest
      exact ⟨high, rfl, left⟩

end Stream

/-- Two readers have the same tokens ahead. Behind them is the end of input for the first one, and some
stream for the second; the last of them ends a statement. -/
structure Reader.Prolongs (tokens : List Token) (behind : Stream) (first second : Reader) : Prop where
  lexical : first.Lexical
  whole : first.Whole
  ends : ∃ stop, first.ahead = .after tokens (.ending stop)
  wholeSecond : second.Whole
  goesOn : second.ahead = .after tokens behind
  loops : second.loops = first.loops
  closed : ∀ last ∈ tokens.getLast?, last.kind.Closes

namespace Reader.Prolongs

variable {tokens : List Token} {behind : Stream} {first second : Reader}

theorem ended (prolongs : Prolongs [] behind first second) :
    first.current.kind = .endOfInput := by
  obtain ⟨stop, ends⟩ := prolongs.ends
  exact kind_of_ahead_ending ends

theorem current {head : Token} (prolongs : Prolongs (head :: tokens) behind first second) :
    first.current = head ∧ second.current = head ∧ head.kind ≠ .endOfInput := by
  obtain ⟨stop, ends⟩ := prolongs.ends
  obtain ⟨same, goesOn⟩ := current_of_ahead ends
  exact ⟨same, (current_of_ahead prolongs.goesOn).1, goesOn⟩

theorem withLoops (prolongs : Prolongs tokens behind first second) (loops : Nat) :
    Prolongs tokens behind { first with loops := loops } { second with loops := loops } where
  lexical := prolongs.lexical
  whole := prolongs.whole
  ends := prolongs.ends
  wholeSecond := prolongs.wholeSecond
  goesOn := prolongs.goesOn
  loops := rfl
  closed := prolongs.closed

/-- Both give the same token away, unless it is the last one and a fault follows. -/
theorem advance {head : Token} (prolongs : Prolongs (head :: tokens) behind first second) :
    ∃ after, Parse.advance first = .done head after ∧
      ((∃ reached, Parse.advance second = .done head reached ∧
          Prolongs tokens behind after reached) ∨
        ∃ fault reached, behind = .fault fault ∧
          Parse.advance second = .failed (.lexical fault) reached) := by
  obtain ⟨stop, ends⟩ := prolongs.ends
  rcases advance_cases prolongs.whole ends with
    ⟨after, given, whole, front⟩ | ⟨fault, _, rest, _⟩
  · refine ⟨after, given, ?_⟩
    rcases advance_cases prolongs.wholeSecond prolongs.goesOn with
      ⟨reached, givenSecond, wholeSecond, frontSecond⟩ | ⟨fault, reached, rest, failed⟩
    · refine .inl ⟨reached, givenSecond, ?_⟩
      exact
        { lexical := Parse.lexical_advance prolongs.lexical given
          whole := whole
          ends := ⟨stop, front⟩
          wholeSecond := wholeSecond
          goesOn := frontSecond
          loops := by
            rw [Parse.loops_of_advance given, Parse.loops_of_advance givenSecond, prolongs.loops]
          closed := fun last isLast => prolongs.closed last (by
            rw [List.getLast?_cons, Option.mem_def.1 isLast]
            rfl) }
    -- the fault is met behind the last token only
    · cases tokens with
      | nil => exact .inr ⟨fault, reached, rest, failed⟩
      | cons => cases rest
  · cases tokens <;> cases rest

end Reader.Prolongs

namespace Parse

open Reader (Prolongs)

variable {α β : Type}

def Never (part : Parse α) (reader : Reader) : Prop :=
  (part reader).Meets (fun _ _ => False) fun _ _ => True

/-- A part yields the same value and goes equally far as another one did, or it comes upon the fault
that is behind. -/
def Repeats (behind : Stream) (part : Parse α) (second : Reader) (value : α) (after : Reader) : Prop :=
  (part second).Meets
    (fun found reached => found = value ∧ ∃ tokens, Prolongs tokens behind after reached)
    fun error _ => ∃ fault, behind = .fault fault ∧ error = .lexical fault

/-- Whatever a part yields is repeated by the other one. Where a closing token is still to come, that is
not expected at the end of input. -/
def Follows (behind : Stream) (inside : Bool) (part other : Parse α) (first second : Reader) : Prop :=
  (part first).Meets
    (fun value after => (inside = true ∧ after.current.kind = .endOfInput) ∨
      Repeats behind other second value after)
    fun _ _ => True

section Rules

variable {behind : Stream} {inside : Bool} {tokens : List Token} {head : Token}
  {first second : Reader}

theorem Never.follows {part other : Parse α} (never : Never part first) :
    Follows behind inside part other first second :=
  never.mono (fun _ _ => False.elim) fun _ _ _ => trivial

theorem follows_cutOff {other : Parse α} :
    Follows behind inside Action.cutOff other first second := trivial

theorem follows_cutOff_right {part : Parse α} :
    Follows behind inside part Action.cutOff first second :=
  (part first).meets_self.mono (fun _ _ _ => .inr trivial) fun _ _ _ => trivial

theorem follows_pure (prolongs : Prolongs tokens behind first second) (value : α) :
    Follows behind inside (pure value) (pure value) first second :=
  .inr ⟨rfl, tokens, prolongs⟩

/-- What is known of the first run goes on with it. At the end of input, what goes on there has to be
excused as well. -/
theorem Follows.bind_of_meets {part other : Parse α} {next more : α → Parse β} {outer : Bool}
    {good : α → Reader → Prop} (follows : Follows behind inside part other first second)
    (meets : (part first).Meets good fun _ _ => True)
    (ended : inside = true → ∀ value after, after.current.kind = .endOfInput →
      (next value after).Meets (fun _ last => outer = true ∧ last.current.kind = .endOfInput)
        fun _ _ => True)
    (goesOn : ∀ {tokens : List Token} {after reached : Reader},
      Prolongs tokens behind after reached → ∀ value, good value after →
        Follows behind outer (next value) (more value) after reached) :
    Follows behind outer (part >>= next) (other >>= more) first second := by
  refine Action.meets_bind ((follows.and meets).mono (fun _ _ found => found) fun _ _ _ => trivial)
    fun value after found => ?_
  obtain ⟨⟨isInside, ends⟩ | repeats, holds⟩ := found
  · exact (ended isInside value after ends).imp fun _ _ => .inl
  · refine (next value after).meets_self.mono (fun result last done => ?_) fun _ _ _ => trivial
    by_cases excused : outer = true ∧ last.current.kind = .endOfInput
    · exact .inl excused
    · refine .inr (Action.meets_bind repeats ?_)
      rintro same reached ⟨rfl, tokens, prolongs⟩
      have later := goesOn prolongs same holds
      rw [Follows, done] at later
      exact later.resolve_left excused

theorem Follows.bind_inside {part other : Parse α} {next more : α → Parse β} {outer : Bool}
    (follows : Follows behind inside part other first second)
    (ended : inside = true → ∀ value after, after.current.kind = .endOfInput →
      (next value after).Meets (fun _ last => outer = true ∧ last.current.kind = .endOfInput)
        fun _ _ => True)
    (goesOn : ∀ {tokens : List Token} {after reached : Reader},
      Prolongs tokens behind after reached →
        ∀ value, Follows behind outer (next value) (more value) after reached) :
    Follows behind outer (part >>= next) (other >>= more) first second :=
  follows.bind_of_meets ((part first).meets_self.mono (fun _ _ done => done) fun _ _ _ => trivial)
    ended fun prolongs value _ => goesOn prolongs value

theorem Follows.bind {part other : Parse α} {next more : α → Parse β}
    (follows : Follows behind false part other first second)
    (goesOn : ∀ {tokens : List Token} {after reached : Reader},
      Prolongs tokens behind after reached →
        ∀ value, Follows behind inside (next value) (more value) after reached) :
    Follows behind inside (part >>= next) (other >>= more) first second :=
  follows.bind_inside nofun goesOn

theorem Follows.repeats {part other : Parse α} {value : α} {after : Reader}
    (follows : Follows behind false part other first second)
    (done : part first = .done value after) : Repeats behind other second value after := by
  rw [Follows, done] at follows
  exact follows.resolve_left (by simp)

theorem follows_current_bind {next more : Token → Parse β}
    (prolongs : Prolongs (head :: tokens) behind first second)
    (goesOn : Follows behind inside (next head) (more head) first second) :
    Follows behind inside (current >>= next) (current >>= more) first second := by
  obtain ⟨rfl, same, _⟩ := prolongs.current
  unfold Follows Repeats
  rw [current_bind, current_bind, same]
  exact goesOn

theorem follows_sees_bind {kind : Kind} {next more : Bool → Parse β}
    (prolongs : Prolongs (head :: tokens) behind first second)
    (goesOn : ∀ seen, Follows behind inside (next seen) (more seen) first second) :
    Follows behind inside (sees kind >>= next) (sees kind >>= more) first second := by
  obtain ⟨rfl, same, _⟩ := prolongs.current
  unfold Follows Repeats
  rw [sees_bind, sees_bind, same]
  exact goesOn _

theorem follows_inLoop_bind {next more : Bool → Parse β}
    (prolongs : Prolongs tokens behind first second)
    (goesOn : ∀ seen, Follows behind inside (next seen) (more seen) first second) :
    Follows behind inside (inLoop >>= next) (inLoop >>= more) first second := by
  unfold Follows Repeats
  rw [inLoop_bind, inLoop_bind, prolongs.loops]
  exact goesOn _

theorem follows_fail {error : SyntaxError} {other : Parse α} :
    Follows behind inside (Action.fail error) other first second := trivial

theorem follows_advance (prolongs : Prolongs (head :: tokens) behind first second) :
    Follows behind inside advance advance first second := by
  unfold Follows Repeats
  obtain ⟨after, given, ⟨reached, givenSecond, rest⟩ | ⟨fault, reached, isFault, failed⟩⟩ :=
    prolongs.advance
  · rw [given, givenSecond]
    exact .inr ⟨rfl, tokens, rest⟩
  · rw [given, failed]
    exact .inr ⟨fault, isFault, rfl⟩

theorem never_expect {symbol : Mark} {expected : Expectation} {reader : Reader}
    (ends : reader.current.kind = .endOfInput) : Never (expect symbol expected) reader := by
  unfold Never expect
  rw [sees_bind, ends]
  trivial

theorem never_identifier {reader : Reader} (ends : reader.current.kind = .endOfInput) :
    Never identifier reader := by
  unfold Never identifier
  rw [current_bind, ends]
  trivial

theorem follows_expect (prolongs : Prolongs tokens behind first second) (symbol : Mark)
    (expected : Expectation) :
    Follows behind inside (expect symbol expected) (expect symbol expected) first second := by
  cases tokens with
  | nil => exact (never_expect prolongs.ended).follows
  | cons head tokens =>
    refine follows_sees_bind prolongs fun seen => ?_
    split
    · exact follows_advance prolongs
    · exact follows_current_bind prolongs follows_fail

theorem follows_identifier (prolongs : Prolongs tokens behind first second) :
    Follows behind inside identifier identifier first second := by
  cases tokens with
  | nil => exact (never_identifier prolongs.ended).follows
  | cons head tokens =>
    refine follows_current_bind prolongs ?_
    split
    · exact (follows_advance prolongs).bind fun prolongs _ => follows_pure prolongs _
    · exact follows_fail

theorem Never.bind {part : Parse α} {reader : Reader} (never : Never part reader)
    (next : α → Parse β) : Never (part >>= next) reader :=
  Action.meets_bind never fun _ _ => False.elim

theorem follows_around {before last beforeOther lastOther : Reader → Reader} {part other : Parse α}
    (follows : Follows behind false part other (before first) (beforeOther second))
    (goesOn : ∀ {tokens : List Token} {after reached : Reader},
      Prolongs tokens behind after reached → Prolongs tokens behind (last after) (lastOther reached)) :
    Follows behind false (Action.around before last part) (Action.around beforeOther lastOther other)
      first second := by
  refine Action.meets_around (follows.imp fun value after found => .inr (Action.meets_around ?_))
  refine (found.resolve_left nofun).mono ?_ fun _ _ isFault => isFault
  rintro found reached ⟨rfl, tokens, prolongs⟩
  exact ⟨rfl, tokens, goesOn prolongs⟩

end Rules

/-! Expressions -/

section Parts

variable {behind : Stream} {inside : Bool} {tokens : List Token} {head : Token}
  {first second : Reader}

theorem never_expression {reader : Reader} (ends : reader.current.kind = .endOfInput) (fuel : Nat) :
    Never (expression fuel) reader := by
  have reads : ReadsOperand 0 (fun _ => False) (expression fuel) reader :=
    (expressionReads fuel).expression reader
  refine Outcome.Meets.mono reads ?_ fun _ _ _ => trivial
  rintro node after ⟨tokens, gives, groups, _⟩
  cases gives with
  | nil => exact groups.ne_nil rfl
  | cons goesOn _ _ => exact goesOn ends

/-- An expression leaves at least the token that ends the statement. What stops it is then the same for
both readers. -/
theorem meets_expression (prolongs : Prolongs tokens behind first second) (fuel steps : Nat) :
    (expression fuel first).Meets
      (fun node after => after.current.kind ≠ .endOfInput ∧
        Repeats behind (expression steps) second node after)
      fun _ _ => True := by
  have reads : ReadsOperand 0 (fun _ => False) (expression fuel) first :=
    (expressionReads fuel).expression first
  refine (Outcome.Meets.and reads (finds_expression fuel first prolongs.lexical)).mono ?_
    fun _ _ _ => trivial
  rintro node after ⟨⟨low, gives, groups, stops⟩, lexical, loops, _⟩
  obtain ⟨stop, ends⟩ := prolongs.ends
  obtain ⟨whole, split⟩ := gives.whole prolongs.whole
  obtain ⟨high, rfl, rest⟩ := Stream.exists_of_after_eq (ends.symm.trans split)
  have closed := prolongs.closed
  have goesOn := prolongs.goesOn
  rw [Stream.after_append] at goesOn
  -- the last token ends a statement, and no expression ends with such a token
  cases high with
  | nil =>
    obtain ⟨front, last, rfl, notClosed⟩ := groups.exists_last
    exact absurd (closed last (by simp)) notClosed
  | cons head high =>
    obtain ⟨reached, leads, wholeReached, front⟩ :=
      Reader.exists_leads prolongs.wholeSecond goesOn nofun
    have later : Prolongs (head :: high) behind after reached :=
      { lexical := lexical
        whole := whole
        ends := ⟨stop, rest⟩
        wholeSecond := wholeReached
        goesOn := front
        loops := by rw [leads.loops, loops, prolongs.loops]
        closed := fun last isLast => closed last (by
          rw [List.getLast?_append, Option.mem_def.1 isLast]
          rfl) }
    obtain ⟨same, sameReached, text⟩ := later.current
    rw [same, ← sameReached] at stops
    refine ⟨by rwa [same], (groups.found.whole _ reached leads stops steps).mono ?_ ?_⟩
    · rintro found _ ⟨rfl, rfl⟩
      exact ⟨rfl, _, later⟩
    · exact fun _ _ => False.elim

theorem follows_expression_bind {next more : Node → Parse β} {fuel steps : Nat}
    (prolongs : Prolongs tokens behind first second)
    (goesOn : ∀ {head : Token} {tokens : List Token} {after reached : Reader},
      Prolongs (head :: tokens) behind after reached →
        ∀ node, Follows behind inside (next node) (more node) after reached) :
    Follows behind inside (expression fuel >>= next) (expression steps >>= more) first second := by
  have meets := meets_expression prolongs fuel steps
  have follows : Follows behind false (expression fuel) (expression steps) first second :=
    meets.imp fun _ _ found => .inr found.2
  refine follows.bind_of_meets (meets.imp fun _ _ found => found.1) nofun ?_
  intro tokens after reached prolongs node text
  cases tokens with
  | nil => exact absurd prolongs.ended text
  | cons head tokens => exact goesOn prolongs node

/-! Statements -/

theorem follows_declaration (prolongs : Prolongs (head :: tokens) behind first second)
    (fuel steps : Nat) :
    Follows behind inside (declaration fuel) (declaration steps) first second := by
  unfold declaration
  refine (follows_advance prolongs).bind fun prolongs _ => ?_
  refine (follows_identifier prolongs).bind fun prolongs _ => ?_
  refine (follows_expect prolongs _ _).bind fun prolongs _ => ?_
  refine follows_expression_bind prolongs fun prolongs _ => ?_
  exact (follows_expect prolongs _ _).bind fun prolongs _ => follows_pure prolongs _

theorem follows_condition (prolongs : Prolongs tokens behind first second) (fuel steps : Nat)
    (word : Keyword) :
    Follows behind inside (condition fuel word) (condition steps word) first second := by
  refine (follows_expect prolongs _ _).bind fun prolongs _ => ?_
  refine follows_expression_bind prolongs fun prolongs node => ?_
  exact (follows_expect prolongs _ _).bind fun prolongs _ => follows_pure prolongs node

theorem follows_optional (prolongs : Prolongs tokens behind first second) (fuel steps : Nat)
    (symbol : Mark) :
    Follows behind inside
      (sees (.mark symbol) >>= fun seen => if seen then pure none else some <$> expression fuel)
      (sees (.mark symbol) >>= fun seen => if seen then pure none else some <$> expression steps)
      first second := by
  cases tokens with
  | nil =>
    have ends := prolongs.ended
    refine Never.follows ?_
    unfold Never
    rw [sees_bind, ends]
    exact (never_expression ends fuel).bind _
  | cons head tokens =>
    refine follows_sees_bind prolongs fun seen => ?_
    split
    · exact follows_pure prolongs none
    · exact follows_expression_bind prolongs fun prolongs node => follows_pure prolongs (some node)

theorem follows_returning (prolongs : Prolongs (head :: tokens) behind first second)
    (fuel steps : Nat) :
    Follows behind inside (returning fuel) (returning steps) first second := by
  refine (follows_advance prolongs).bind fun prolongs word => ?_
  refine (follows_optional prolongs fuel steps .semicolon).bind fun prolongs value => ?_
  exact (follows_expect prolongs _ _).bind fun prolongs _ => follows_pure prolongs _

theorem follows_loopControl (prolongs : Prolongs (head :: tokens) behind first second)
    (word : Keyword) (node : Span → Node) :
    Follows behind inside (loopControl word node) (loopControl word node) first second := by
  refine follows_inLoop_bind prolongs fun seen => ?_
  split
  · refine (follows_advance prolongs).bind fun prolongs found => ?_
    exact (follows_expect prolongs _ _).bind fun prolongs _ => follows_pure prolongs _
  · exact follows_current_bind prolongs follows_fail

theorem follows_expressionStatement (prolongs : Prolongs tokens behind first second)
    (fuel steps : Nat) :
    Follows behind inside (expressionStatement fuel) (expressionStatement steps) first second := by
  refine follows_expression_bind prolongs fun prolongs node => ?_
  refine follows_sees_bind prolongs fun seen => ?_
  split
  · exact follows_pure prolongs node
  · exact (follows_expect prolongs _ _).bind fun prolongs _ => follows_pure prolongs node

theorem follows_initializer (prolongs : Prolongs tokens behind first second) (fuel steps : Nat) :
    Follows behind inside (initializer fuel) (initializer steps) first second := by
  cases tokens with
  | nil =>
    have ends := prolongs.ended
    refine Never.follows ?_
    unfold Never initializer
    rw [current_bind, ends]
    exact (never_expression ends fuel).bind _
  | cons head tokens =>
    refine follows_current_bind prolongs ?_
    split
    · exact (follows_advance prolongs).bind fun prolongs _ => follows_pure prolongs none
    · exact (follows_declaration prolongs fuel steps).bind fun prolongs node =>
        follows_pure prolongs (some node)
    · refine follows_expression_bind prolongs fun prolongs node => ?_
      exact (follows_expect prolongs _ _).bind fun prolongs _ => follows_pure prolongs (some node)

theorem follows_loopCondition (prolongs : Prolongs tokens behind first second) (fuel steps : Nat) :
    Follows behind inside (loopCondition fuel) (loopCondition steps) first second := by
  cases tokens with
  | nil =>
    have ends := prolongs.ended
    refine Never.follows ?_
    unfold Never loopCondition
    rw [current_bind, if_neg (by simp [ends])]
    exact never_expression ends fuel
  | cons head tokens =>
    refine follows_current_bind prolongs ?_
    split
    · exact follows_pure prolongs _
    · exact (meets_expression prolongs fuel steps).imp fun _ _ found => .inr found.2

theorem follows_someParameters (prolongs : Prolongs tokens behind first second) (fuel steps : Nat) :
    Follows behind true (someParameters fuel) (someParameters steps) first second := by
  induction fuel generalizing steps tokens first second with
  | zero => exact follows_cutOff
  | succ fuel ih =>
    cases steps with
    | zero => exact follows_cutOff_right
    | succ steps =>
      refine (follows_identifier prolongs).bind ?_
      intro tokens after reached prolongs name
      cases tokens with
      | nil =>
        have ends := prolongs.ended
        unfold Follows
        rw [sees_bind, ends]
        exact .inl ⟨rfl, ends⟩
      | cons head tokens =>
        refine follows_sees_bind prolongs fun seen => ?_
        split
        · refine (follows_advance prolongs).bind fun prolongs _ => ?_
          refine (ih prolongs steps).bind_inside (fun _ _ _ ends => ⟨rfl, ends⟩) ?_
          exact fun prolongs rest => follows_pure prolongs (name :: rest)
        · exact follows_pure prolongs _

theorem follows_parameters (prolongs : Prolongs tokens behind first second) (fuel steps : Nat) :
    Follows behind true (parameters fuel) (parameters steps) first second := by
  cases tokens with
  | nil =>
    have ends := prolongs.ended
    refine Never.follows ?_
    unfold Never parameters
    rw [sees_bind, ends]
    cases fuel with
    | zero => trivial
    | succ fuel => exact (never_identifier ends).bind _
  | cons head tokens =>
    refine follows_sees_bind prolongs fun seen => ?_
    split
    · exact follows_pure prolongs []
    · exact follows_someParameters prolongs fuel steps

theorem never_statement {reader : Reader} (ends : reader.current.kind = .endOfInput) (fuel : Nat) :
    Never (statement fuel) reader := by
  cases fuel with
  | zero => trivial
  | succ fuel =>
    unfold Never statement
    rw [current_bind, ends]
    exact (never_expression ends fuel).bind _

theorem follows_insideLoop {part other : Parse Node} (prolongs : Prolongs tokens behind first second)
    (follows : ∀ {first second : Reader}, Prolongs tokens behind first second →
      Follows behind false part other first second) :
    Follows behind false (insideLoop part) (insideLoop other) first second := by
  refine follows_around ?_ fun {tokens after reached} prolongs => ?_
  · rw [prolongs.loops]
    exact follows (prolongs.withLoops _)
  · rw [prolongs.loops]
    exact prolongs.withLoops _

structure StatementFollows (behind : Stream) (fuel steps : Nat) : Prop where
  statement : ∀ {tokens first second}, Prolongs tokens behind first second →
    Follows behind false (statement fuel) (statement steps) first second
  definition : ∀ {head tokens first second}, Prolongs (head :: tokens) behind first second →
    Follows behind false (definition fuel) (definition steps) first second
  block : ∀ {tokens first second}, Prolongs tokens behind first second →
    Follows behind false (block fuel) (block steps) first second
  sequence : ∀ {tokens first second}, Prolongs tokens behind first second →
    Follows behind true (sequence fuel true) (sequence steps true) first second
  branch : ∀ {head tokens first second}, Prolongs (head :: tokens) behind first second →
    Follows behind false (branch fuel) (branch steps) first second
  whileLoop : ∀ {head tokens first second}, Prolongs (head :: tokens) behind first second →
    Follows behind false (whileLoop fuel) (whileLoop steps) first second
  forLoop : ∀ {head tokens first second}, Prolongs (head :: tokens) behind first second →
    Follows behind false (forLoop fuel) (forLoop steps) first second

namespace StatementFollows

variable {fuel steps : Nat}

theorem statement_succ (follows : StatementFollows behind fuel steps)
    (prolongs : Prolongs tokens behind first second) :
    Follows behind false (Parse.statement (fuel + 1)) (Parse.statement (steps + 1)) first
      second := by
  cases tokens with
  | nil => exact (never_statement prolongs.ended (fuel + 1)).follows
  | cons head tokens =>
    refine follows_current_bind prolongs ?_
    split
    · exact follows_declaration prolongs fuel steps
    · exact follows.definition prolongs
    · exact follows.branch prolongs
    · exact follows.whileLoop prolongs
    · exact follows.forLoop prolongs
    · exact follows_returning prolongs fuel steps
    · exact follows_loopControl prolongs _ _
    · exact follows_loopControl prolongs _ _
    · exact (follows.block prolongs).bind fun prolongs _ => follows_pure prolongs _
    · exact follows_expressionStatement prolongs fuel steps

theorem definition_succ (follows : StatementFollows behind fuel steps)
    (prolongs : Prolongs (head :: tokens) behind first second) :
    Follows behind false (Parse.definition (fuel + 1)) (Parse.definition (steps + 1)) first
      second := by
  refine (follows_advance prolongs).bind fun prolongs _ => ?_
  refine (follows_identifier prolongs).bind fun prolongs _ => ?_
  refine (follows_expect prolongs _ _).bind fun prolongs _ => ?_
  refine (follows_parameters prolongs fuel steps).bind_inside ?_ fun prolongs names => ?_
  · exact fun _ _ _ ends => ((never_expect ends).bind _).imp fun _ _ => False.elim
  refine (follows_expect prolongs _ _).bind ?_
  intro tokens after reached prolongs _
  have body : Follows behind false (outsideLoops (Parse.block fuel))
      (outsideLoops (Parse.block steps)) after reached := by
    refine follows_around (follows.block (prolongs.withLoops 0)) fun later => ?_
    rw [prolongs.loops]
    exact later.withLoops _
  exact body.bind fun prolongs _ => follows_pure prolongs _

theorem block_succ (follows : StatementFollows behind fuel steps)
    (prolongs : Prolongs tokens behind first second) :
    Follows behind false (Parse.block (fuel + 1)) (Parse.block (steps + 1)) first second := by
  refine (follows_expect prolongs _ _).bind fun prolongs _ => ?_
  refine (follows.sequence prolongs).bind_inside ?_ fun prolongs nodes => ?_
  · exact fun _ _ _ ends => ((never_expect ends).bind _).imp fun _ _ => False.elim
  exact (follows_expect prolongs _ _).bind fun prolongs _ => follows_pure prolongs _

theorem sequence_succ (follows : StatementFollows behind fuel steps)
    (prolongs : Prolongs tokens behind first second) :
    Follows behind true (Parse.sequence (fuel + 1) true) (Parse.sequence (steps + 1) true) first
      second := by
  cases tokens with
  | nil =>
    have ends := prolongs.ended
    unfold Follows Parse.sequence
    rw [current_bind, ends]
    exact .inl ⟨rfl, ends⟩
  | cons head tokens =>
    refine follows_current_bind prolongs ?_
    split
    · exact follows_pure prolongs []
    · refine (follows.statement prolongs).bind fun prolongs node => ?_
      refine (follows.sequence prolongs).bind_inside (fun _ _ _ ends => ⟨rfl, ends⟩) ?_
      exact fun prolongs rest => follows_pure prolongs (node :: rest)

theorem branch_succ (follows : StatementFollows behind fuel steps)
    (noElse : ∀ head ∈ behind.tokens.head?, head.kind ≠ .keyword .elseWord)
    (prolongs : Prolongs (head :: tokens) behind first second) :
    Follows behind false (Parse.branch (fuel + 1)) (Parse.branch (steps + 1)) first second := by
  refine (follows_advance prolongs).bind fun prolongs _ => ?_
  refine (follows_condition prolongs fuel steps _).bind fun prolongs _ => ?_
  refine (follows.statement prolongs).bind ?_
  intro tokens after reached prolongs node
  cases tokens with
  | nil =>
    -- what stands behind is no more an `else` than the end of input is
    have ends := prolongs.ended
    have head := Reader.current_mem_head? prolongs.wholeSecond
    rw [prolongs.goesOn] at head
    unfold Follows Repeats
    rw [sees_bind, sees_bind, ends, beq_eq_false_iff_ne.mpr (noElse _ head)]
    exact follows_pure prolongs _
  | cons head tokens =>
    refine follows_sees_bind prolongs fun seen => ?_
    split
    · refine (follows_advance prolongs).bind fun prolongs _ => ?_
      exact (follows.statement prolongs).bind fun prolongs _ => follows_pure prolongs _
    · exact follows_pure prolongs _

theorem whileLoop_succ (follows : StatementFollows behind fuel steps)
    (prolongs : Prolongs (head :: tokens) behind first second) :
    Follows behind false (Parse.whileLoop (fuel + 1)) (Parse.whileLoop (steps + 1)) first
      second := by
  refine (follows_advance prolongs).bind fun prolongs _ => ?_
  refine (follows_condition prolongs fuel steps _).bind fun prolongs _ => ?_
  refine (follows_insideLoop prolongs follows.statement).bind ?_
  exact fun prolongs _ => follows_pure prolongs _

theorem forLoop_succ (follows : StatementFollows behind fuel steps)
    (prolongs : Prolongs (head :: tokens) behind first second) :
    Follows behind false (Parse.forLoop (fuel + 1)) (Parse.forLoop (steps + 1)) first second := by
  refine (follows_advance prolongs).bind fun prolongs _ => ?_
  refine (follows_expect prolongs _ _).bind fun prolongs _ => ?_
  refine (follows_initializer prolongs fuel steps).bind fun prolongs _ => ?_
  refine (follows_loopCondition prolongs fuel steps).bind fun prolongs _ => ?_
  refine (follows_expect prolongs _ _).bind fun prolongs _ => ?_
  refine (follows_optional prolongs fuel steps .rightParen).bind fun prolongs _ => ?_
  refine (follows_expect prolongs _ _).bind fun prolongs _ => ?_
  refine (follows_insideLoop prolongs follows.statement).bind ?_
  exact fun prolongs _ => follows_pure prolongs _

end StatementFollows

theorem statementFollows (noElse : ∀ head ∈ behind.tokens.head?, head.kind ≠ .keyword .elseWord)
    (fuel steps : Nat) : StatementFollows behind fuel steps := by
  induction fuel generalizing steps with
  | zero => constructor <;> intros <;> exact follows_cutOff
  | succ fuel ih =>
    obtain _ | steps := steps
    · constructor <;> intros <;> exact follows_cutOff_right
    specialize ih steps
    exact {
      statement := ih.statement_succ
      definition := ih.definition_succ
      block := ih.block_succ
      sequence := ih.sequence_succ
      branch := ih.branch_succ noElse
      whileLoop := ih.whileLoop_succ
      forLoop := ih.forLoop_succ }

end Parts

end Parse

end Scriptlet
