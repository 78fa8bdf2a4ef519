import Scriptlet.Grammar.Program
import Scriptlet.Proofs.Approximation
import Scriptlet.Proofs.Grammar.Layered

/-! Reading by precedence is reading level by level.

`Parse.climb` with a least precedence does the work of all levels from the tightest down to that
precedence; `Layered.tower` is that many levels, and `Layered.ascend` is what they do once the first
operand is read.
-/

set_option autoImplicit false

namespace Scriptlet

namespace Layered

def ofPrecedence? (precedence : Nat) (kind : Kind) : Option Operator :=
  match Operator.ofKind? kind with
  | some (found, operator) => if found = precedence then some operator else none
  | none => none

theorem disjunctionOperator?_eq : disjunctionOperator? = ofPrecedence? 1 := by
  funext kind
  cases kind with
  | mark symbol => cases symbol <;> rfl
  | _ => rfl

theorem conjunctionOperator?_eq : conjunctionOperator? = ofPrecedence? 2 := by
  funext kind
  cases kind with
  | mark symbol => cases symbol <;> rfl
  | _ => rfl

theorem equalityOperator?_eq : equalityOperator? = ofPrecedence? 3 := by
  funext kind
  cases kind with
  | mark symbol => cases symbol <;> rfl
  | _ => rfl

theorem comparisonOperator?_eq : comparisonOperator? = ofPrecedence? 4 := by
  funext kind
  cases kind with
  | mark symbol => cases symbol <;> rfl
  | _ => rfl

theorem sumOperator?_eq : sumOperator? = ofPrecedence? 5 := by
  funext kind
  cases kind with
  | mark symbol => cases symbol <;> rfl
  | _ => rfl

theorem productOperator?_eq : productOperator? = ofPrecedence? 6 := by
  funext kind
  cases kind with
  | mark symbol => cases symbol <;> rfl
  | _ => rfl

/-- The `count` tightest levels of operators. -/
def tower (operand : Parse Node) (steps : Nat) : Nat → Parse Node
  | 0 => operand
  | count + 1 => chain (ofPrecedence? (6 - count)) (tower operand steps count) steps

theorem disjunction_eq_tower (operand : Parse Node) (steps : Nat) :
    disjunction operand steps = tower operand steps 6 := by
  simp only [disjunction, conjunction, equality, comparison, sum, product, tower,
    disjunctionOperator?_eq, conjunctionOperator?_eq, equalityOperator?_eq,
    comparisonOperator?_eq, sumOperator?_eq, productOperator?_eq]

/-- What those levels do after their first operand. -/
def ascend (operand : Parse Node) (steps : Nat) : Nat → Node → Parse Node
  | 0, left => pure left
  | count + 1, left =>
    ascend operand steps count left >>=
      joins (ofPrecedence? (6 - count)) (tower operand steps count) steps

theorem tower_eq_ascend (operand : Parse Node) (steps count : Nat) :
    tower operand steps count = operand >>= ascend operand steps count := by
  induction count with
  | zero => exact (Action.bind_pure_self operand).symm
  | succ count ih =>
    calc tower operand steps (count + 1)
        = (operand >>= ascend operand steps count) >>=
            joins (ofPrecedence? (6 - count)) (tower operand steps count) steps :=
          congrArg (· >>= joins (ofPrecedence? (6 - count)) (tower operand steps count) steps) ih
      _ = operand >>= ascend operand steps (count + 1) := Action.bind_bind _ _ _

/-! More steps -/

theorem joins_mono {operator? : Kind → Option Operator} {operand other : Parse Node}
    (low : Action.Below operand other) {steps more : Nat} (le : steps ≤ more) (left : Node) :
    Action.Below (joins operator? operand steps left) (joins operator? other more left) := by
  induction steps generalizing more left with
  | zero => exact Action.cutOff_below _
  | succ steps ih =>
    obtain ⟨more, rfl⟩ : ∃ rest, more = rest + 1 := ⟨more - 1, by omega⟩
    refine Action.Below.bind (.refl _) fun next => ?_
    cases operator? next.kind with
    | none => exact .refl _
    | some operator =>
      refine Action.Below.bind (.refl _) fun _ => Action.Below.bind low fun right => ?_
      exact ih (by omega) _

theorem tower_mono (operand : Parse Node) {steps more : Nat} (le : steps ≤ more) (count : Nat) :
    Action.Below (tower operand steps count) (tower operand more count) := by
  induction count with
  | zero => exact .refl _
  | succ count ih => exact Action.Below.bind ih (joins_mono ih le)

theorem ascend_mono (operand : Parse Node) {steps more : Nat} (le : steps ≤ more) (count : Nat)
    (left : Node) :
    Action.Below (ascend operand steps count left) (ascend operand more count left) := by
  induction count with
  | zero => exact .refl _
  | succ count ih => exact Action.Below.bind ih (joins_mono (tower_mono operand le count) le)

end Layered

/-! Where a level stops -/

namespace Reader

def LooserNext (least : Nat) (reader : Reader) : Prop :=
  ∀ precedence operator,
    Operator.ofKind? reader.current.kind = some (precedence, operator) → precedence < least

end Reader

namespace Layered

theorem ofPrecedence?_eq_none {precedence least : Nat} {reader : Reader}
    (looser : reader.LooserNext least) (le : least ≤ precedence) :
    ofPrecedence? precedence reader.current.kind = none := by
  unfold ofPrecedence?
  cases known : Operator.ofKind? reader.current.kind with
  | none => rfl
  | some entry =>
    obtain ⟨found, operator⟩ := entry
    have less := looser found operator known
    exact if_neg (by omega)

theorem joins_silent {operator? : Kind → Option Operator} (operand : Parse Node) (steps : Nat)
    (left : Node) {reader : Reader} (silent : operator? reader.current.kind = none) :
    joins operator? operand (steps + 1) left reader = .done left reader := by
  rw [joins, Parse.current_bind, silent]
  rfl

theorem joins_operator {operator? : Kind → Option Operator} (operand : Parse Node) (steps : Nat)
    {operator : Operator} (left : Node) {reader : Reader}
    (known : operator? reader.current.kind = some operator) :
    joins operator? operand (steps + 1) left reader =
      (Parse.advance >>= fun _ => operand >>= fun right =>
        joins operator? operand steps (operator.join left right)) reader := by
  rw [joins, Parse.current_bind, known]

theorem ascend_looser (operand : Parse Node) (steps : Nat) {count : Nat} (le : count ≤ 6)
    (left : Node) {reader : Reader} (looser : reader.LooserNext (7 - count)) :
    ascend operand (steps + 1) count left reader = .done left reader := by
  induction count with
  | zero => rfl
  | succ count ih =>
    have tighter : reader.LooserNext (7 - count) := fun precedence operator known =>
      Nat.lt_of_lt_of_le (looser precedence operator known) (by omega)
    rw [ascend, Action.bind_apply, ih (by omega) tighter]
    exact joins_silent _ _ _ (ofPrecedence?_eq_none looser (by omega))

theorem ofPrecedence?_of_ofKind? {precedence : Nat} {operator : Operator} {kind : Kind}
    (known : Operator.ofKind? kind = some (precedence, operator)) :
    ofPrecedence? precedence kind = some operator := by
  simp [ofPrecedence?, known]

/-- At an operator of theirs, levels read it and an operand of the level above it. What is left of
them then does at least what all of them do with one step less. -/
theorem ascend_operator (operand : Parse Node) (steps count : Nat) {precedence : Nat}
    {operator : Operator} (left : Node) {reader : Reader}
    (known : Operator.ofKind? reader.current.kind = some (precedence, operator))
    (enough : 7 ≤ count + precedence) (le : count ≤ 6) :
    ∃ finish : Node → Parse Node,
      ascend operand (steps + 1) count left reader =
        (Parse.advance >>= fun _ => tower operand (steps + 1) (6 - precedence) >>= finish) reader ∧
      ∀ (right : Node) (after : Reader), after.LooserNext (precedence + 1) →
        Outcome.Below (ascend operand steps count (operator.join left right) after)
          (finish right after) := by
  induction count with
  | zero =>
    have bounds := Operator.precedence_bounds known
    omega
  | succ count ih =>
    by_cases own : precedence = 6 - count
    · -- the tighter levels find nothing on either side; this one reads the operator
      have level : count = 6 - precedence := by omega
      refine ⟨fun right => joins (ofPrecedence? (6 - count)) (tower operand (steps + 1) count) steps
        (operator.join left right), ?_, ?_⟩
      · have here : reader.LooserNext (7 - count) := by
          intro found other same
          rw [known] at same
          cases same
          omega
        rw [ascend, Action.bind_apply, ascend_looser operand steps (by omega) left here]
        dsimp only
        rw [joins_operator _ steps left (own ▸ ofPrecedence?_of_ofKind? known), ← level]
      · intro right after looser
        have there : after.LooserNext (7 - count) := by
          rw [show 7 - count = precedence + 1 by omega]
          exact looser
        have resumed : Outcome.Below (ascend operand steps count (operator.join left right) after)
            (.done (operator.join left right) after) := by
          rw [← ascend_looser operand steps (by omega) (operator.join left right) there]
          exact ascend_mono operand (Nat.le_succ steps) count _ after
        refine (Action.bind_below_of_done resumed).trans ?_
        exact joins_mono (tower_mono operand (Nat.le_succ steps) count) (Nat.le_refl steps) _ after
    · obtain ⟨finish, reads, finishes⟩ := ih (by omega) (by omega)
      refine ⟨fun right => finish right >>=
        joins (ofPrecedence? (6 - count)) (tower operand (steps + 1) count) (steps + 1), ?_, ?_⟩
      · rw [ascend, Action.bind_apply, reads, ← Action.bind_apply]
        simp only [Action.bind_bind]
      · intro right after looser
        exact Action.bind_below_at (finishes right after looser) fun node reached _ =>
          joins_mono (tower_mono operand (Nat.le_succ steps) count) (Nat.le_succ steps) node reached

end Layered

namespace Parse

theorem climb_looser {fuel least : Nat} {left node : Node} {reader after : Reader}
    (read : climb fuel least left reader = .done node after) : after.LooserNext least := by
  induction fuel generalizing left reader with
  | zero => cases read
  | succ fuel ih =>
    rw [climb, current_bind] at read
    cases known : Operator.ofKind? reader.current.kind with
    | none =>
      simp only [known] at read
      cases read
      intro precedence operator same
      rw [known] at same
      cases same
    | some entry =>
      simp only [known] at read
      split at read
      · cases read
        intro precedence operator same
        rw [known] at same
        cases same
        assumption
      · obtain ⟨_, _, _, read⟩ := Action.bind_eq_done_iff.mp read
        obtain ⟨_, _, _, read⟩ := Action.bind_eq_done_iff.mp read
        exact ih read

theorem operation_looser {fuel least : Nat} {node : Node} {reader after : Reader}
    (read : operation fuel least reader = .done node after) : after.LooserNext least := by
  cases fuel with
  | zero => cases read
  | succ fuel =>
    obtain ⟨_, _, _, climbed⟩ := Action.bind_eq_done_iff.mp read
    exact climb_looser climbed

end Parse

namespace Layered

theorem literal_eq (node : Span → Node) (reader : Reader) :
    literal node reader =
      (Parse.advance >>= fun _ => (pure (node reader.current.span) : Parse Node)) reader := by
  rw [literal, Action.bind_apply, Action.bind_apply]
  cases given : Parse.advance reader with
  | done token next => rw [Parse.eq_current_of_advance given]
  | failed error next => rfl
  | cutOff => rfl

/-- With so many steps, or more of them for the levels, both ways to read agree part by part. -/
structure Simulates (fuel : Nat) : Prop where
  expression : ∀ more, fuel ≤ more → Action.Below (Parse.expression fuel) (expression more)
  operation : ∀ more steps least, fuel ≤ more → fuel ≤ steps → 1 ≤ least → least ≤ 7 →
    Action.Below (Parse.operation fuel least) (tower (signed more) steps (7 - least))
  climb : ∀ more steps least left, fuel ≤ more → fuel ≤ steps → 1 ≤ least → least ≤ 7 →
    Action.Below (Parse.climb fuel least left) (ascend (signed more) steps (7 - least) left)
  unary : ∀ more, fuel ≤ more → Action.Below (Parse.unary fuel) (signed more)
  call : ∀ more, fuel ≤ more → Action.Below (Parse.call fuel) (called more)
  calls : ∀ more callee, fuel ≤ more →
    Action.Below (Parse.calls fuel callee) (callSuffixes more callee)
  arguments : ∀ more, fuel ≤ more → Action.Below (Parse.arguments fuel) (arguments more)
  someArguments : ∀ more, fuel ≤ more →
    Action.Below (Parse.someArguments fuel) (someArguments more)
  primary : ∀ more, fuel ≤ more → Action.Below (Parse.primary fuel) (primary more)

theorem climb_below {fuel : Nat} (ih : Simulates fuel) {more steps least : Nat}
    (le : fuel + 1 ≤ more) (many : fuel + 1 ≤ steps) (lower : 1 ≤ least) (upper : least ≤ 7)
    (left : Node) :
    Action.Below (Parse.climb (fuel + 1) least left)
      (ascend (signed more) steps (7 - least) left) := by
  intro reader
  obtain ⟨steps, rfl⟩ : ∃ rest, steps = rest + 1 := ⟨steps - 1, by omega⟩
  have stopped : ∀ looser : reader.LooserNext (7 - (7 - least)),
      Outcome.Below (.done left reader)
        (ascend (signed more) (steps + 1) (7 - least) left reader) := fun looser =>
    .inr (ascend_looser _ _ (by omega) left looser).symm
  rw [Parse.climb, Parse.current_bind]
  cases known : Operator.ofKind? reader.current.kind with
  | none =>
    refine stopped fun _ _ same => ?_
    rw [known] at same
    cases same
  | some entry =>
    obtain ⟨precedence, operator⟩ := entry
    have bounds := Operator.precedence_bounds known
    dsimp only
    split
    · refine stopped fun _ _ same => ?_
      rw [known] at same
      cases same
      omega
    · -- the level of the operator reads its operand; the levels below resume with what it joins
      obtain ⟨finish, reads, finishes⟩ :=
        ascend_operator (signed more) steps (7 - least) left known (by omega) (by omega)
      rw [reads]
      refine Action.bind_below_at (.refl _) fun _ next _ => ?_
      have operand := ih.operation more (steps + 1) (precedence + 1) (by omega) (by omega)
        (by omega) (by omega) next
      rw [show 7 - (precedence + 1) = 6 - precedence by omega] at operand
      refine Action.bind_below_at operand fun right after read => ?_
      exact (ih.climb more steps least _ (by omega) (by omega) lower upper after).trans
        (finishes right after (Parse.operation_looser read))

theorem primary_below {fuel : Nat} (ih : Simulates fuel) {more : Nat} (le : fuel + 1 ≤ more) :
    Action.Below (Parse.primary (fuel + 1)) (primary more) := by
  intro reader
  obtain ⟨more, rfl⟩ : ∃ rest, more = rest + 1 := ⟨more - 1, by omega⟩
  rw [Parse.primary, primary, Parse.current_bind, Parse.current_bind]
  have grouped : Action.Below
      (Parse.advance >>= fun opening => Parse.expression fuel >>= fun inner =>
        Parse.expect .rightParen .parenAfterExpression >>= fun closing =>
          (pure (inner.withSpan (opening.span.merge closing.span)) : Parse Node))
      (Parse.advance >>= fun opening => expression more >>= fun inner =>
        Parse.expect .rightParen .parenAfterExpression >>= fun closing =>
          (pure (inner.withSpan (opening.span.merge closing.span)) : Parse Node)) :=
    Action.Below.bind (.refl _) fun _ => (ih.expression more (by omega)).bind fun _ => .refl _
  unfold Parse.atom?
  cases kind : reader.current.kind with
  | number value => exact .inr (literal_eq (.number · value) reader).symm
  | string text => exact .inr (literal_eq (.string · text) reader).symm
  | identifier name => exact .inr (literal_eq (.reference · name) reader).symm
  | keyword word =>
    cases word with
    | trueWord => exact .inr (literal_eq (.boolean · true) reader).symm
    | falseWord => exact .inr (literal_eq (.boolean · false) reader).symm
    | nilWord => exact .inr (literal_eq .nil reader).symm
    | _ => exact .refl _
  | mark symbol =>
    cases symbol with
    | leftParen => exact grouped reader
    | _ => exact .refl _
  | endOfInput => exact .refl _

theorem expression_below {fuel : Nat} (ih : Simulates fuel) {more : Nat} (le : fuel + 1 ≤ more) :
    Action.Below (Parse.expression (fuel + 1)) (expression more) := by
  obtain ⟨more, rfl⟩ : ∃ rest, more = rest + 1 := ⟨more - 1, by omega⟩
  rw [Parse.expression, expression, disjunction_eq_tower]
  refine (ih.operation more more 1 (by omega) (by omega) (by omega) (by omega)).bind
    fun target => Action.Below.bind (.refl _) fun equal => ?_
  cases equal with
  | false => exact .refl _
  | true =>
    refine Action.Below.bind (.refl _) fun _ => (ih.expression more (by omega)).bind
      fun value => ?_
    cases target <;> exact .refl _

theorem unary_below {fuel : Nat} (ih : Simulates fuel) {more : Nat} (le : fuel + 1 ≤ more) :
    Action.Below (Parse.unary (fuel + 1)) (signed more) := by
  intro reader
  obtain ⟨more, rfl⟩ : ∃ rest, more = rest + 1 := ⟨more - 1, by omega⟩
  rw [Parse.unary, signed, Parse.current_bind, Parse.current_bind]
  have signedBelow : ∀ op, Action.Below
      (Parse.advance >>= fun sign => Parse.unary fuel >>= fun operand =>
        (pure (.unary (sign.span.merge operand.span) op operand) : Parse Node))
      (prefixed op (signed more)) := fun op =>
    Action.Below.bind (.refl _) fun _ => (ih.unary more (by omega)).bind fun _ => .refl _
  have calledBelow := ih.call more (by omega)
  cases kind : reader.current.kind with
  | mark symbol => cases symbol <;> first | exact calledBelow reader | exact signedBelow _ reader
  | _ => exact calledBelow reader

theorem calls_below {fuel : Nat} (ih : Simulates fuel) {more : Nat} (le : fuel + 1 ≤ more)
    (callee : Node) :
    Action.Below (Parse.calls (fuel + 1) callee) (callSuffixes more callee) := by
  obtain ⟨more, rfl⟩ : ∃ rest, more = rest + 1 := ⟨more - 1, by omega⟩
  rw [Parse.calls, callSuffixes]
  refine Action.Below.bind (.refl _) fun opened => ?_
  cases opened with
  | false => exact .refl _
  | true =>
    refine Action.Below.bind (.refl _) fun _ => ?_
    refine (ih.arguments more (by omega)).bind fun found => ?_
    exact Action.Below.bind (.refl _) fun closing => ih.calls more _ (by omega)

theorem someArguments_below {fuel : Nat} (ih : Simulates fuel) {more : Nat}
    (le : fuel + 1 ≤ more) :
    Action.Below (Parse.someArguments (fuel + 1)) (someArguments more) := by
  obtain ⟨more, rfl⟩ : ∃ rest, more = rest + 1 := ⟨more - 1, by omega⟩
  rw [Parse.someArguments, someArguments]
  refine (ih.expression more (by omega)).bind fun first => ?_
  refine Action.Below.bind (.refl _) fun comma => ?_
  cases comma with
  | false => exact .refl _
  | true =>
    refine Action.Below.bind (.refl _) fun _ => ?_
    exact (ih.someArguments more (by omega)).bind fun rest => .refl _

theorem simulates (fuel : Nat) : Simulates fuel := by
  induction fuel with
  | zero => constructor <;> intros <;> exact Action.cutOff_below _
  | succ fuel ih =>
    constructor
    case expression => exact fun more le => expression_below ih le
    case operation =>
      intro more steps least le many lower upper
      rw [Parse.operation, tower_eq_ascend]
      exact (ih.unary more (by omega)).bind fun left =>
        ih.climb more steps least left (by omega) (by omega) lower upper
    case climb =>
      exact fun more steps least left le many lower upper => climb_below ih le many lower upper left
    case unary => exact fun more le => unary_below ih le
    case call =>
      intro more le
      -- the levels are given at least as many steps, so there is one to take
      obtain ⟨more, rfl⟩ : ∃ rest, more = rest + 1 := ⟨more - 1, by omega⟩
      rw [Parse.call, called]
      exact (ih.primary more (by omega)).bind fun callee => ih.calls more callee (by omega)
    case calls => exact fun more callee le => calls_below ih le callee
    case arguments =>
      intro more le
      obtain ⟨more, rfl⟩ : ∃ rest, more = rest + 1 := ⟨more - 1, by omega⟩
      rw [Parse.arguments, arguments]
      refine Action.Below.bind (.refl _) fun closed => ?_
      cases closed with
      | false => exact ih.someArguments more (by omega)
      | true => exact .refl _
    case someArguments => exact fun more le => someArguments_below ih le
    case primary => exact fun more le => primary_below ih le

end Layered

namespace Reader

theorem layered_ends (reader : Reader) : Layered.expression reader.fuel reader ≠ .cutOff := by
  have below := (Layered.simulates reader.fuel).expression reader.fuel (Nat.le_refl _) reader
  rw [below.eq_of_ne_cutOff reader.expression_ends]
  exact reader.expression_ends

def layeredExpression (reader : Reader) : Except SyntaxError Node × Reader :=
  (Layered.expression reader.fuel reader).result reader.layered_ends

/-- From every reader, whatever stream it is in, reading by precedence and reading level by level
come to the same tree or the same error, and to the same reader. -/
theorem expression_eq_layeredExpression (reader : Reader) :
    reader.expression = reader.layeredExpression := by
  have below := (Layered.simulates reader.fuel).expression reader.fuel (Nat.le_refl _) reader
  unfold expression layeredExpression
  simp only [below.eq_of_ne_cutOff reader.expression_ends]

end Reader

end Scriptlet
