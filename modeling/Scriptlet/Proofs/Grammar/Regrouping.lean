import Mathlib.Data.List.Basic
import Scriptlet.Proofs.Grammar.Grouping

/-! Tokens are read as they group.

A part of the grammar that goes on after an operand, such as `Parse.climb` or `Parse.calls`, is not
expected to stop behind it: whatever is reached by going on from there is reached by reading the
operand first.
-/

set_option autoImplicit false

namespace Scriptlet

open Reader (Leads)

/-- Whatever number of steps it is given, a part that is not cut off has a value, and stops at a
reader. -/
def Finds {α : Type} (part : Nat → Parse α) (value : α) (reader after : Reader) : Prop :=
  ∀ fuel, (part fuel reader).Meets (fun found reached => found = value ∧ reached = after)
    fun _ _ => False

/-- Whatever is met by going on from a node behind its tokens is met by reading these first. -/
def Resumes (part : Nat → Parse Node) (resume : Nat → Node → Parse Node) (node : Node)
    (reader after : Reader) : Prop :=
  ∀ good : Node → Reader → Prop,
    (∀ fuel, (resume fuel node after).Meets good fun _ _ => False) →
    ∀ fuel, (part fuel reader).Meets good fun _ _ => False

theorem Kind.Stops.mono {level higher : Nat} {kind : Kind} (stops : kind.Stops level)
    (le : level ≤ higher) : kind.Stops higher where
  noCall := stops.noCall
  looser precedence operator known := by
    have looser := stops.looser precedence operator known
    omega
  noEqual same := stops.noEqual (by omega)

/-! How much of the grammar some tokens are enough for -/

def FindsWhole (tokens : List Token) (node : Node) : Prop :=
  ∀ reader after, Leads tokens reader after → after.current.kind.Stops 0 →
    Finds Parse.expression node reader after

def FindsOperand (level : Nat) (tokens : List Token) (node : Node) : Prop :=
  ∀ reader after, Leads tokens reader after → after.current.kind.Stops (level + 1) →
    ∀ least, least ≤ level →
      Resumes (Parse.operation · least) (Parse.climb · least) node reader after

def FindsSigned (tokens : List Token) (node : Node) : Prop :=
  ∀ reader after, Leads tokens reader after → after.current.kind ≠ .mark .leftParen →
    Finds Parse.unary node reader after

def FindsCalled (tokens : List Token) (node : Node) : Prop :=
  ∀ reader after, Leads tokens reader after →
    UnaryOp.ofKind? reader.current.kind = none ∧ Resumes Parse.call Parse.calls node reader after

def FindsPrimary (tokens : List Token) (node : Node) : Prop :=
  ∀ reader after, Leads tokens reader after →
    UnaryOp.ofKind? reader.current.kind = none ∧ Finds Parse.primary node reader after

def FindsArguments (tokens : List Token) (nodes : List Node) : Prop :=
  ∀ reader after, Leads tokens reader after → after.current.kind = .mark .rightParen →
    Finds Parse.someArguments nodes reader after

/-! Tokens that are enough for a tighter place are enough for a looser one -/

theorem FindsPrimary.called {tokens : List Token} {node : Node} (finds : FindsPrimary tokens node) :
    FindsCalled tokens node := by
  intro reader after leads
  obtain ⟨unsigned, primary⟩ := finds reader after leads
  refine ⟨unsigned, fun good goesOn fuel => ?_⟩
  cases fuel with
  | zero => trivial
  | succ fuel =>
    rw [Parse.call]
    refine Action.meets_bind (primary fuel) ?_
    rintro _ _ ⟨rfl, rfl⟩
    exact goesOn fuel

theorem FindsCalled.signed {tokens : List Token} {node : Node} (finds : FindsCalled tokens node) :
    FindsSigned tokens node := by
  intro reader after leads noCall fuel
  obtain ⟨unsigned, called⟩ := finds reader after leads
  cases fuel with
  | zero => trivial
  | succ fuel =>
    rw [Parse.unary, Parse.current_bind, unsigned]
    -- no list of arguments follows, so the calls end where the callee does
    refine called _ (fun fuel => ?_) fuel
    cases fuel with
    | zero => trivial
    | succ fuel =>
      rw [Parse.calls, Parse.sees_bind, beq_eq_false_iff_ne.mpr noCall]
      exact ⟨rfl, rfl⟩

theorem FindsSigned.operand {tokens : List Token} {node : Node} (finds : FindsSigned tokens node)
    (level : Nat) : FindsOperand level tokens node := by
  intro reader after leads stops _ least _ goesOn fuel
  cases fuel with
  | zero => trivial
  | succ fuel =>
    change (Parse.operation (fuel + 1) _ reader).Meets _ _
    rw [Parse.operation]
    refine Action.meets_bind (finds reader after leads stops.noCall fuel) ?_
    rintro _ _ ⟨rfl, rfl⟩
    exact goesOn fuel

theorem FindsOperand.mono {level lower : Nat} {tokens : List Token} {node : Node}
    (finds : FindsOperand level tokens node) (le : lower ≤ level) :
    FindsOperand lower tokens node :=
  fun reader after leads stops least below =>
    finds reader after leads (stops.mono (by omega)) least (by omega)

theorem climb_stops {least : Nat} {after : Reader} (stops : after.current.kind.Stops least)
    (node : Node) : Finds (Parse.climb · least node) node after after := by
  intro fuel
  cases fuel with
  | zero => trivial
  | succ fuel =>
    change (Parse.climb (fuel + 1) least node after).Meets _ _
    rw [Parse.climb, Parse.current_bind]
    cases known : Operator.ofKind? after.current.kind with
    | none => exact ⟨rfl, rfl⟩
    | some entry =>
      have looser := stops.looser entry.1 entry.2 known
      dsimp only
      rw [if_pos looser]
      exact ⟨rfl, rfl⟩

theorem FindsOperand.operation {level : Nat} {tokens : List Token} {node : Node}
    (finds : FindsOperand level tokens node) {reader after : Reader}
    (leads : Leads tokens reader after) (stops : after.current.kind.Stops level) :
    Finds (Parse.operation · level) node reader after :=
  finds reader after leads (stops.mono (Nat.le_succ level)) level (Nat.le_refl level) _
    (climb_stops stops node)

theorem FindsOperand.whole {tokens : List Token} {node : Node}
    (finds : FindsOperand Operator.loosest tokens node) : FindsWhole tokens node := by
  intro reader after leads stops fuel
  cases fuel with
  | zero => trivial
  | succ fuel =>
    rw [Parse.expression]
    refine Action.meets_bind (finds.operation leads (stops.mono (Nat.zero_le _)) fuel) ?_
    rintro _ _ ⟨rfl, rfl⟩
    rw [Parse.sees_bind, beq_eq_false_iff_ne.mpr (stops.noEqual rfl)]
    exact ⟨rfl, rfl⟩

/-- What the tokens of an operand of a level are enough for. -/
structure FindsLevel (level : Nat) (tokens : List Token) (node : Node) : Prop where
  whole : FindsWhole tokens node
  operand : ∀ least, Operator.loosest ≤ least → least ≤ level → FindsOperand least tokens node
  signed : 7 ≤ level → FindsSigned tokens node
  called : 8 ≤ level → FindsCalled tokens node

namespace FindsLevel

variable {tokens : List Token} {node : Node} {level : Nat}

theorem of_primary (primary : FindsPrimary tokens node) (level : Nat) :
    FindsLevel level tokens node where
  whole := (primary.called.signed.operand _).whole
  operand least _ _ := primary.called.signed.operand least
  signed _ := primary.called.signed
  called _ := primary.called

theorem of_called (called : FindsCalled tokens node) (level : Nat) :
    FindsLevel level tokens node where
  whole := (called.signed.operand _).whole
  operand least _ _ := called.signed.operand least
  signed _ := called.signed
  called _ := called

theorem of_signed (signed : FindsSigned tokens node) (bound : level ≤ 7) :
    FindsLevel level tokens node where
  whole := (signed.operand _).whole
  operand least _ _ := signed.operand least
  signed _ := signed
  called tight := by omega

theorem of_operand {precedence : Nat} (operand : FindsOperand precedence tokens node)
    (bounds : Operator.loosest ≤ precedence ∧ precedence ≤ 6) (bound : level ≤ precedence) :
    FindsLevel level tokens node where
  whole := (operand.mono bounds.1).whole
  operand least _ below := operand.mono (by omega)
  signed tight := by omega
  called tight := by omega

theorem of_whole (whole : FindsWhole tokens node) : FindsLevel 0 tokens node where
  whole := whole
  operand least loose below := by
    unfold Operator.loosest at loose
    omega
  signed tight := by omega
  called tight := by omega

end FindsLevel

/-! One way to group tokens after the other -/

theorem Kind.stops_rightParen (level : Nat) : (Kind.mark .rightParen).Stops level where
  noCall := by simp
  looser precedence operator known := by cases known
  noEqual _ := by simp

theorem Kind.stops_comma (level : Nat) : (Kind.mark .comma).Stops level where
  noCall := by simp
  looser precedence operator known := by cases known
  noEqual _ := by simp

theorem UnaryOp.ofKind?_of_atom? {token : Token} {node : Node}
    (known : Parse.atom? token = some node) : ofKind? token.kind = none := by
  unfold Parse.atom? at known
  split at known
  case h_7 => cases known
  all_goals next same => rw [same]; rfl

theorem findsPrimary_atom {token : Token} {node : Node} (known : Parse.atom? token = some node) :
    FindsPrimary [token] node := by
  intro reader after leads
  obtain ⟨rfl, given⟩ := Leads.single_iff.1 leads
  refine ⟨UnaryOp.ofKind?_of_atom? known, fun fuel => ?_⟩
  cases fuel with
  | zero => trivial
  | succ fuel =>
    rw [Parse.primary, Parse.current_bind, known]
    exact Action.meets_bind_of_done given ⟨rfl, rfl⟩

variable {low high tokens : List Token} {node : Node}

theorem FindsWhole.grouped {opening closing : Token} (finds : FindsWhole tokens node)
    (left : opening.kind = .mark .leftParen) (right : closing.kind = .mark .rightParen) :
    FindsPrimary (opening :: (tokens ++ [closing]))
      (node.withSpan (opening.span.merge closing.span)) := by
  intro reader after leads
  obtain ⟨rfl, next, given, leads⟩ := Leads.cons_iff.1 leads
  obtain ⟨last, inner, leads⟩ := Leads.append_iff.1 leads
  obtain ⟨rfl, done⟩ := Leads.single_iff.1 leads
  refine ⟨by rw [left]; rfl, fun fuel => ?_⟩
  cases fuel with
  | zero => trivial
  | succ fuel =>
    have noAtom : Parse.atom? reader.current = none := by rw [Parse.atom?, left]
    rw [Parse.primary, Parse.current_bind, noAtom]
    dsimp only
    rw [if_pos left]
    refine Action.meets_bind_of_done given ?_
    have stops : last.current.kind.Stops 0 := by
      rw [right]
      exact Kind.stops_rightParen 0
    refine Action.meets_bind (finds next last inner stops fuel) ?_
    rintro _ _ ⟨rfl, rfl⟩
    exact Action.meets_bind_of_done (Parse.expect_of_kind right done) ⟨rfl, rfl⟩

theorem FindsSigned.unary {sign : Token} {op : UnaryOp} (finds : FindsSigned tokens node)
    (known : UnaryOp.ofKind? sign.kind = some op) :
    FindsSigned (sign :: tokens) (.unary (sign.span.merge node.span) op node) := by
  intro reader after leads noCall fuel
  obtain ⟨rfl, next, given, leads⟩ := Leads.cons_iff.1 leads
  cases fuel with
  | zero => trivial
  | succ fuel =>
    rw [Parse.unary, Parse.current_bind, known]
    refine Action.meets_bind_of_done given ?_
    refine Action.meets_bind (finds next after leads noCall fuel) ?_
    rintro _ _ ⟨rfl, rfl⟩
    exact ⟨rfl, rfl⟩

/-- Operands joined by an operator: the left one may hold together as loosely as the operator, the
right one may not. -/
theorem FindsOperand.join {between : Token} {precedence : Nat} {operator : Operator}
    {left right : Node} (known : Operator.ofKind? between.kind = some (precedence, operator))
    (findsLeft : FindsOperand precedence low left)
    (findsRight : FindsOperand (precedence + 1) high right) :
    FindsOperand precedence (low ++ between :: high) (operator.join left right) := by
  intro reader after leads stops least below good goesOn
  obtain ⟨middle, leadsLeft, leads⟩ := Leads.append_iff.1 leads
  obtain ⟨rfl, next, given, leadsRight⟩ := Leads.cons_iff.1 leads
  -- the left operand ends at the operator: no call and nothing tighter goes on with it
  have stopsLeft : middle.current.kind.Stops (precedence + 1) :=
    { noCall := fun same => by rw [same] at known; cases known
      looser := fun other found same => by
        rw [known] at same
        cases same
        exact Nat.lt_succ_self _
      noEqual := nofun }
  -- climbing goes on from the left operand, takes the operator, and resumes with what it joins
  refine findsLeft reader middle leadsLeft stopsLeft least below good fun fuel => ?_
  cases fuel with
  | zero => trivial
  | succ fuel =>
    change (Parse.climb (fuel + 1) least left middle).Meets good _
    rw [Parse.climb, Parse.current_bind, known]
    dsimp only
    rw [if_neg (by omega)]
    refine Action.meets_bind_of_done given ?_
    refine Action.meets_bind (findsRight.operation leadsRight stops fuel) ?_
    rintro _ _ ⟨rfl, rfl⟩
    exact goesOn fuel

theorem FindsWhole.assign {equal : Token} {span : Span} {name : String} {value : Node}
    (target : FindsOperand Operator.loosest low (.reference span name))
    (kind : equal.kind = .mark .equal) (finds : FindsWhole high value) :
    FindsWhole (low ++ equal :: high) (.assign (span.merge value.span) name value) := by
  intro reader after leads stops fuel
  obtain ⟨middle, leadsLeft, leads⟩ := Leads.append_iff.1 leads
  obtain ⟨rfl, next, given, leadsRight⟩ := Leads.cons_iff.1 leads
  cases fuel with
  | zero => trivial
  | succ fuel =>
    rw [Parse.expression]
    have stopsLeft : middle.current.kind.Stops Operator.loosest :=
      { noCall := by simp [kind]
        looser := fun other found same => by rw [kind] at same; cases same
        noEqual := nofun }
    refine Action.meets_bind (target.operation leadsLeft stopsLeft fuel) ?_
    rintro _ _ ⟨rfl, rfl⟩
    rw [Parse.sees_bind, beq_iff_eq.mpr kind]
    refine Action.meets_bind_of_done given ?_
    refine Action.meets_bind (finds next after leadsRight stops fuel) ?_
    rintro _ _ ⟨rfl, rfl⟩
    exact ⟨rfl, rfl⟩

theorem Groups.head_ne_rightParen {level : Nat} (groups : Groups tokens (.operand level node)) :
    ∀ first ∈ tokens.head?, first.kind ≠ .mark .rightParen := by
  generalize same : Grouping.operand level node = grouping at groups
  induction groups generalizing level node with
  | atom known =>
    rintro first (_ | _) kind
    rw [Parse.atom?, kind] at known
    cases known
  | grouped left =>
    rintro first (_ | _) kind
    rw [left] at kind
    cases kind
  | signed _ known =>
    rintro first (_ | _) kind
    rw [kind] at known
    cases known
  | joined _ left _ _ ih =>
    rw [List.head?_append_of_ne_nil _ left.ne_nil]
    exact ih rfl
  | assigned target _ _ ih =>
    rw [List.head?_append_of_ne_nil _ target.ne_nil]
    exact ih rfl
  | called _ callee _ _ _ ih =>
    rw [List.head?_append_of_ne_nil _ callee.ne_nil]
    exact ih rfl
  | noArguments | lastArgument | moreArguments => cases same

theorem FindsArguments.last (finds : FindsWhole tokens node) : FindsArguments tokens [node] := by
  intro reader after leads closed fuel
  cases fuel with
  | zero => trivial
  | succ fuel =>
    rw [Parse.someArguments]
    have stops : after.current.kind.Stops 0 := by
      rw [closed]
      exact Kind.stops_rightParen 0
    refine Action.meets_bind (finds reader after leads stops fuel) ?_
    rintro _ _ ⟨rfl, rfl⟩
    rw [Parse.sees_bind, closed]
    exact ⟨rfl, rfl⟩

theorem FindsArguments.more {comma : Token} {rest : List Node} (first : FindsWhole low node)
    (kind : comma.kind = .mark .comma) (others : FindsArguments high rest) :
    FindsArguments (low ++ comma :: high) (node :: rest) := by
  intro reader after leads closed fuel
  obtain ⟨middle, leadsFirst, leads⟩ := Leads.append_iff.1 leads
  obtain ⟨rfl, next, given, leadsRest⟩ := Leads.cons_iff.1 leads
  cases fuel with
  | zero => trivial
  | succ fuel =>
    rw [Parse.someArguments]
    have stops : middle.current.kind.Stops 0 := by
      rw [kind]
      exact Kind.stops_comma 0
    refine Action.meets_bind (first reader middle leadsFirst stops fuel) ?_
    rintro _ _ ⟨rfl, rfl⟩
    rw [Parse.sees_bind, kind]
    refine Action.meets_bind_of_done given ?_
    refine Action.meets_bind (others next after leadsRest closed fuel) ?_
    rintro _ _ ⟨rfl, rfl⟩
    exact ⟨rfl, rfl⟩

theorem FindsCalled.call {opening closing : Token} {callee : Node} {arguments : List Node}
    (finds : FindsCalled low callee) (left : opening.kind = .mark .leftParen)
    (found : ∀ reader after, Leads tokens reader after → after.current.kind = .mark .rightParen →
      Finds Parse.arguments arguments reader after)
    (right : closing.kind = .mark .rightParen) :
    FindsCalled (low ++ opening :: (tokens ++ [closing]))
      (.call (callee.span.merge closing.span) callee arguments) := by
  intro reader after leads
  obtain ⟨middle, leadsCallee, leads⟩ := Leads.append_iff.1 leads
  obtain ⟨rfl, next, given, leads⟩ := Leads.cons_iff.1 leads
  obtain ⟨last, inner, leads⟩ := Leads.append_iff.1 leads
  obtain ⟨rfl, done⟩ := Leads.single_iff.1 leads
  obtain ⟨unsigned, calls⟩ := finds reader middle leadsCallee
  refine ⟨unsigned, fun good goesOn => calls good fun fuel => ?_⟩
  cases fuel with
  | zero => trivial
  | succ fuel =>
    rw [Parse.calls, Parse.sees_bind, left]
    refine Action.meets_bind_of_done given ?_
    refine Action.meets_bind (found next last inner right fuel) ?_
    rintro _ _ ⟨rfl, rfl⟩
    refine Action.meets_bind_of_done (Parse.expect_of_kind right done) ?_
    exact goesOn fuel

theorem Finds.arguments {nodes : List Node} (groups : Groups tokens (.arguments nodes))
    (finds : nodes ≠ [] → FindsArguments tokens nodes) {reader after : Reader}
    (leads : Leads tokens reader after) (closed : after.current.kind = .mark .rightParen) :
    Finds Parse.arguments nodes reader after := by
  intro fuel
  cases fuel with
  | zero => trivial
  | succ fuel =>
    rw [Parse.arguments, Parse.sees_bind]
    -- an argument does not begin with the parenthesis that ends the list
    have goesOn (nonempty : nodes ≠ [])
        (begins : ∀ first ∈ tokens.head?, first.kind ≠ .mark .rightParen) (bare : tokens ≠ []) :
        ((if (reader.current.kind == .mark .rightParen) = true then pure []
          else Parse.someArguments fuel : Parse (List Node)) reader).Meets
          (fun found reached => found = nodes ∧ reached = after) fun _ _ => False := by
      rw [if_neg fun same => begins _ (leads.current_mem_head? bare) (beq_iff_eq.1 same)]
      exact finds nonempty reader after leads closed fuel
    cases groups with
    | noArguments =>
      obtain rfl := Leads.nil_iff.1 leads
      rw [closed]
      exact ⟨rfl, rfl⟩
    | lastArgument inner => exact goesOn (List.cons_ne_nil _ _) inner.head_ne_rightParen inner.ne_nil
    | moreArguments first =>
      refine goesOn (List.cons_ne_nil _ _) ?_ (by simp)
      rw [List.head?_append_of_ne_nil _ first.ne_nil]
      exact first.head_ne_rightParen

def Grouping.Found (tokens : List Token) : Grouping → Prop
  | operand level node => FindsLevel level tokens node
  | arguments nodes => nodes ≠ [] → FindsArguments tokens nodes

theorem Groups.found {grouping : Grouping} (groups : Groups tokens grouping) :
    grouping.Found tokens := by
  induction groups with
  | atom known => exact .of_primary (findsPrimary_atom known) _
  | grouped left _ right inner => exact .of_primary (inner.whole.grouped left right) _
  | signed bound known _ operand =>
    exact .of_signed ((operand.signed (Nat.le_refl 7)).unary known) bound
  | joined bound _ known _ left right =>
    have bounds := Operator.precedence_bounds known
    have operand := FindsOperand.join known (left.operand _ bounds.1 (Nat.le_refl _))
      (right.operand _ (Nat.le_succ_of_le bounds.1) (Nat.le_refl _))
    exact .of_operand operand bounds bound
  | assigned _ equal _ target value =>
    exact .of_whole (.assign (target.operand _ (Nat.le_refl _) (Nat.le_refl _)) equal value.whole)
  | called bound _ left inner right callee arguments =>
    have called := (callee.called (Nat.le_refl 8)).call left
      (fun _ _ => Finds.arguments inner arguments) right
    exact .of_called called _
  | noArguments => exact fun nonempty => absurd rfl nonempty
  | lastArgument _ node => exact fun _ => .last node.whole
  | moreArguments _ comma _ nonempty first rest =>
    exact fun _ => .more first.whole comma (rest nonempty)

end Scriptlet
