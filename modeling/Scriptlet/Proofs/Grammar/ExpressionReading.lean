import Mathlib.Logic.Basic
import Scriptlet.Proofs.Grammar.Regrouping
import Scriptlet.Proofs.Tree.Written

/-! Written expressions are read back: their tokens group as the expressions do, whatever the tokens'
places.
-/

set_option autoImplicit false

namespace Scriptlet

/-- Whatever number of steps it is given, a part that is not cut off reads a tree that is the same
but for its spans, and stops at a reader. -/
def Reads (part : Nat → Parse Node) (node : Node) (reader after : Reader) : Prop :=
  ∀ fuel, (part fuel reader).Meets
    (fun found reached => found.bare = node.bare ∧ reached = after) fun _ _ => False

def Kind.endsExpression : Kind → Bool
  | .mark symbol => symbol = .rightParen || symbol = .comma || symbol = .semicolon
  | _ => false

theorem Kind.stops_of_endsExpression {kind : Kind} (ends : kind.endsExpression = true) :
    kind.Stops 0 where
  noCall same := by
    rw [same] at ends
    cases ends
  looser precedence operator known := by
    cases kind with
    | mark symbol => cases symbol <;> first | (cases known; done) | cases ends
    | _ => cases ends
  noEqual _ same := by
    rw [same] at ends
    cases ends

theorem Operator.bare_join (operator : Operator) {left right otherLeft otherRight : Node}
    (sameLeft : otherLeft.bare = left.bare) (sameRight : otherRight.bare = right.bare) :
    (operator.join otherLeft otherRight).bare = (operator.join left right).bare := by
  cases operator with
  | binary op => exact congrArg₂ (Node.binary _ op) sameLeft sameRight
  | logical op => exact congrArg₂ (Node.logical _ op) sameLeft sameRight

/-! How much an expression's text is enough for -/

/-- Tokens of some kinds are an operand of a level that is an expression but for its spans. -/
def GroupsTo (level : Nat) (kinds : List Kind) (node : Node) : Prop :=
  ∀ tokens : List Token, tokens.map Token.kind = kinds →
    ∃ found, Groups tokens (.operand level found) ∧ found.bare = node.bare

namespace GroupsTo

variable {level : Nat} {kinds : List Kind} {node : Node}

theorem mono (groups : GroupsTo level kinds node) {lower : Nat} (le : lower ≤ level) :
    GroupsTo lower kinds node := by
  intro tokens same
  obtain ⟨found, inner, bare⟩ := groups tokens same
  exact ⟨found, inner.mono le, bare⟩

theorem enclosed (groups : GroupsTo node.tightness kinds node) (least : Nat) :
    GroupsTo least (node.enclosed least kinds) node := by
  unfold Node.enclosed
  split
  · intro tokens same
    obtain ⟨opening, tokens, rfl, left, same⟩ := List.map_eq_cons_iff.1 same
    obtain ⟨inside, last, rfl, sameInner, same⟩ := List.map_eq_append_iff.1 same
    obtain ⟨closing, rfl, right⟩ := List.map_eq_singleton_iff.1 same
    obtain ⟨found, inner, bare⟩ := groups inside sameInner
    refine ⟨_, .grouped left (inner.mono (Nat.zero_le _)) right, ?_⟩
    rw [Node.bare_withSpan, bare]
  · next tight => exact groups.mono (Nat.le_of_not_lt tight)

theorem atom {kind : Kind} (atom : ∀ token : Token, token.kind = kind →
      ∃ found, Parse.atom? token = some found ∧ found.bare = node.bare) :
    GroupsTo level [kind] node := by
  intro tokens same
  obtain ⟨token, rfl, kind⟩ := List.map_eq_singleton_iff.1 same
  obtain ⟨found, known, bare⟩ := atom token kind
  exact ⟨found, .atom known, bare⟩

theorem join {precedence : Nat} {operator : Operator} {kind : Kind}
    (known : Operator.ofKind? kind = some (precedence, operator)) {low high : List Kind}
    {left right : Node} (groupsLeft : GroupsTo precedence low left)
    (groupsRight : GroupsTo (precedence + 1) high right) :
    GroupsTo precedence (low ++ kind :: high) (operator.join left right) := by
  intro tokens same
  obtain ⟨before, tokens, rfl, sameLow, same⟩ := List.map_eq_append_iff.1 same
  obtain ⟨between, after, rfl, rfl, sameHigh⟩ := List.map_eq_cons_iff.1 same
  obtain ⟨first, groupsFirst, bareFirst⟩ := groupsLeft before sameLow
  obtain ⟨second, groupsSecond, bareSecond⟩ := groupsRight after sameHigh
  exact ⟨_, .joined (Nat.le_refl _) groupsFirst known groupsSecond,
    operator.bare_join bareFirst bareSecond⟩

theorem assign {span : Span} {name : String} {value : Node} (groups : GroupsTo 0 kinds value) :
    GroupsTo 0 (.identifier name :: .mark .equal :: kinds) (.assign span name value) := by
  intro tokens same
  obtain ⟨target, tokens, rfl, isName, same⟩ := List.map_eq_cons_iff.1 same
  obtain ⟨equal, tokens, rfl, isEqual, same⟩ := List.map_eq_cons_iff.1 same
  obtain ⟨found, inner, bare⟩ := groups tokens same
  have reference : Parse.atom? target = some (.reference target.span name) := by
    rw [Parse.atom?, isName]
  exact ⟨_, .assigned (.atom reference) isEqual inner, congrArg (Node.assign _ name) bare⟩

theorem signed {span : Span} {op : UnaryOp} (groups : GroupsTo 7 kinds node) :
    GroupsTo 7 (.mark op.mark :: kinds) (.unary span op node) := by
  intro tokens same
  obtain ⟨sign, tokens, rfl, kind, same⟩ := List.map_eq_cons_iff.1 same
  obtain ⟨found, inner, bare⟩ := groups tokens same
  have known : UnaryOp.ofKind? sign.kind = some op := by rw [kind, UnaryOp.ofKind?_mark]
  exact ⟨_, .signed (Nat.le_refl 7) known inner, congrArg (Node.unary _ op) bare⟩

theorem arguments {nodes : List Node}
    (groups : ∀ node ∈ nodes, GroupsTo 0 node.expressionKinds node) {tokens : List Token}
    (same : tokens.map Token.kind = Node.argumentKinds nodes) :
    ∃ found, Groups tokens (.arguments found) ∧ found.map Node.bare = nodes.map Node.bare := by
  induction nodes generalizing tokens with
  | nil =>
    obtain rfl := List.map_eq_nil_iff.1 same
    exact ⟨[], .noArguments, rfl⟩
  | cons node rest ih =>
    obtain ⟨first, others⟩ := List.forall_mem_cons.1 groups
    cases rest with
    | nil =>
      obtain ⟨found, inner, bare⟩ := first tokens same
      exact ⟨[found], .lastArgument inner, congrArg (fun node => [node]) bare⟩
    | cons next rest =>
      obtain ⟨low, tokens, rfl, sameLow, same⟩ := List.map_eq_append_iff.1 same
      obtain ⟨comma, high, rfl, kind, sameHigh⟩ := List.map_eq_cons_iff.1 same
      obtain ⟨found, inner, bare⟩ := first low sameLow
      obtain ⟨more, behind, bares⟩ := ih others sameHigh
      refine ⟨found :: more, .moreArguments inner kind behind ?_, congrArg₂ List.cons bare bares⟩
      rintro rfl
      cases bares

theorem call {span : Span} {arguments : List Node} (callee : GroupsTo 8 kinds node)
    (groups : ∀ node ∈ arguments, GroupsTo 0 node.expressionKinds node) :
    GroupsTo 8 (kinds ++ .mark .leftParen :: (Node.argumentKinds arguments ++ [.mark .rightParen]))
      (.call span node arguments) := by
  intro tokens same
  obtain ⟨low, tokens, rfl, sameLow, same⟩ := List.map_eq_append_iff.1 same
  obtain ⟨opening, tokens, rfl, left, same⟩ := List.map_eq_cons_iff.1 same
  obtain ⟨inner, last, rfl, sameInner, same⟩ := List.map_eq_append_iff.1 same
  obtain ⟨closing, rfl, right⟩ := List.map_eq_singleton_iff.1 same
  obtain ⟨found, groupsLow, bare⟩ := callee low sameLow
  obtain ⟨values, groupsInner, bares⟩ := GroupsTo.arguments groups sameInner
  refine ⟨_, .called (Nat.le_refl 8) groupsLow left groupsInner right, ?_⟩
  simp only [Node.bare, Node.mapSpans, Node.mapSpansEach_eq_map]
  exact congrArg₂ (Node.call _) bare bares

end GroupsTo

theorem WellFormed.Expression.groupsTo {node : Node} (sound : WellFormed.Expression node) :
    GroupsTo node.tightness node.expressionKinds node := by
  induction sound with
  | @number span value =>
    exact .atom fun token kind => ⟨.number token.span value, by rw [Parse.atom?, kind], rfl⟩
  | @string span text =>
    exact .atom fun token kind => ⟨.string token.span text, by rw [Parse.atom?, kind], rfl⟩
  | @boolean span value =>
    cases value with
    | false =>
      exact .atom fun token kind => ⟨.boolean token.span false, by simp [Parse.atom?, kind], rfl⟩
    | true =>
      exact .atom fun token kind => ⟨.boolean token.span true, by simp [Parse.atom?, kind], rfl⟩
  | nil => exact .atom fun token kind => ⟨.nil token.span, by rw [Parse.atom?, kind], rfl⟩
  | @reference span name =>
    exact .atom fun token kind => ⟨.reference token.span name, by rw [Parse.atom?, kind], rfl⟩
  | assign _ _ value => exact .assign (GroupsTo.mono value (Nat.zero_le _))
  | unary _ operand => exact .signed (operand.enclosed 7)
  | @binary _ op _ _ _ _ left right =>
    exact .join (Operator.ofKind?_binary op) (left.enclosed _) (right.enclosed _)
  | @logical _ op _ _ _ _ left right =>
    exact .join (Operator.ofKind?_logical op) (left.enclosed _) (right.enclosed _)
  | call _ _ callee arguments =>
    exact .call (callee.enclosed 8) fun node member => (arguments node member).mono (Nat.zero_le _)

/-- The text of an expression is read back up to a token that ends it. -/
theorem WellFormed.Expression.reads {node : Node} (sound : WellFormed.Expression node)
    {reader after : Reader} (passes : Passes node.expressionKinds reader after)
    (ends : after.current.kind.endsExpression = true) :
    Reads Parse.expression node reader after := by
  obtain ⟨tokens, same, leads⟩ := Reader.exists_leads_of_passes passes
  obtain ⟨found, groups, bare⟩ := sound.groupsTo tokens same
  intro fuel
  refine (groups.found.whole reader after leads (Kind.stops_of_endsExpression ends) fuel).imp ?_
  rintro _ _ ⟨rfl, rfl⟩
  exact ⟨bare, rfl⟩

end Scriptlet
