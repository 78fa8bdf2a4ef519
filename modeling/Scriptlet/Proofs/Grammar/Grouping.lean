import Scriptlet.Grammar.Expression
import Scriptlet.Proofs.Token.Cutting
import Scriptlet.Proofs.Tree.Contained

/-! How the tokens of an expression group, by the precedence of their operators.

An operand of a level holds together at least as tightly as that: from 1 to 6 the level is that of an
operator, signs have level 7 and calls level 8, and an assignment is an operand of level 0 alone.
-/

set_option autoImplicit false

namespace Scriptlet

/-- What a row of tokens within an expression can be. -/
inductive Grouping where
  | operand (level : Nat) (node : Node)
  | arguments (nodes : List Node)

def Grouping.nodes : Grouping → List Node
  | operand _ node => [node]
  | arguments nodes => nodes

inductive Groups : List Token → Grouping → Prop where
  | atom {level : Nat} {token : Token} {node : Node} : Parse.atom? token = some node →
    Groups [token] (.operand level node)
  | grouped {level : Nat} {opening closing : Token} {tokens : List Token} {node : Node} :
    opening.kind = .mark .leftParen → Groups tokens (.operand 0 node) →
      closing.kind = .mark .rightParen →
      Groups (opening :: (tokens ++ [closing]))
        (.operand level (node.withSpan (opening.span.merge closing.span)))
  | signed {level : Nat} {sign : Token} {tokens : List Token} {op : UnaryOp} {operand : Node} :
    level ≤ 7 → UnaryOp.ofKind? sign.kind = some op → Groups tokens (.operand 7 operand) →
      Groups (sign :: tokens)
        (.operand level (.unary (sign.span.merge operand.span) op operand))
  | joined {level precedence : Nat} {between : Token} {low high : List Token}
    {operator : Operator} {left right : Node} :
    level ≤ precedence → Groups low (.operand precedence left) →
      Operator.ofKind? between.kind = some (precedence, operator) →
      Groups high (.operand (precedence + 1) right) →
      Groups (low ++ between :: high) (.operand level (operator.join left right))
  | assigned {equal : Token} {low high : List Token} {span : Span} {name : String} {value : Node} :
    Groups low (.operand Operator.loosest (.reference span name)) → equal.kind = .mark .equal →
      Groups high (.operand 0 value) →
      Groups (low ++ equal :: high) (.operand 0 (.assign (span.merge value.span) name value))
  | called {level : Nat} {opening closing : Token} {low inner : List Token} {callee : Node}
    {arguments : List Node} :
    level ≤ 8 → Groups low (.operand 8 callee) → opening.kind = .mark .leftParen →
      Groups inner (.arguments arguments) → closing.kind = .mark .rightParen →
      Groups (low ++ opening :: (inner ++ [closing]))
        (.operand level (.call (callee.span.merge closing.span) callee arguments))
  | noArguments : Groups [] (.arguments [])
  | lastArgument {tokens : List Token} {node : Node} : Groups tokens (.operand 0 node) →
    Groups tokens (.arguments [node])
  | moreArguments {comma : Token} {low high : List Token} {first : Node} {rest : List Node} :
    Groups low (.operand 0 first) → comma.kind = .mark .comma → Groups high (.arguments rest) →
      rest ≠ [] → Groups (low ++ comma :: high) (.arguments (first :: rest))

/-- A kind that goes on with no operand of a level: with no call, no operator that binds so tightly,
and at the loosest level with no assignment. -/
structure Kind.Stops (level : Nat) (kind : Kind) : Prop where
  noCall : kind ≠ .mark .leftParen
  looser : ∀ precedence operator,
    Operator.ofKind? kind = some (precedence, operator) → precedence < level
  noEqual : level = 0 → kind ≠ .mark .equal

namespace Kind.Stops

variable {kind : Kind}

theorem of_noCall {level : Nat} (noCall : kind ≠ .mark .leftParen) (tight : 7 ≤ level) :
    kind.Stops level where
  noCall := noCall
  looser precedence operator known := by
    have bounds := Operator.precedence_bounds known
    omega
  noEqual same := by omega

theorem whole (stops : kind.Stops Operator.loosest) (noEqual : kind ≠ .mark .equal) :
    kind.Stops 0 where
  noCall := stops.noCall
  looser precedence operator known := by
    have bounds := Operator.precedence_bounds known
    have looser := stops.looser precedence operator known
    omega
  noEqual _ := noEqual

end Kind.Stops

theorem Operator.span_join (operator : Operator) (left right : Node) :
    (operator.join left right).span = left.span.merge right.span := by
  cases operator <;> rfl

theorem Operator.children_join (operator : Operator) (left right : Node) :
    (operator.join left right).children = [left, right] := by
  cases operator <;> rfl

theorem Parse.span_of_atom? {token : Token} {node : Node} (known : atom? token = some node) :
    node.span = token.span ∧ node.children = [] := by
  unfold atom? at known
  split at known
  case h_7 => cases known
  all_goals cases known; exact ⟨rfl, rfl⟩

namespace Groups

variable {tokens : List Token} {level : Nat} {node : Node}

theorem mono (groups : Groups tokens (.operand level node)) {lower : Nat} (le : lower ≤ level) :
    Groups tokens (.operand lower node) := by
  cases groups with
  | atom known => exact .atom known
  | grouped opening inner closing => exact .grouped opening inner closing
  | signed bound known operand => exact .signed (by omega) known operand
  | joined bound left known right => exact .joined (by omega) left known right
  | assigned target equal value =>
    obtain rfl := Nat.le_zero.1 le
    exact .assigned target equal value
  | called bound callee opening inner closing =>
    exact .called (by omega) callee opening inner closing

theorem ne_nil (groups : Groups tokens (.operand level node)) : tokens ≠ [] := by
  cases groups <;> simp

end Groups

/-! An operand spans its tokens -/

/-- From the start of the first token to the end of the last one. -/
def Span.Covers (span : Span) (tokens : List Token) : Prop :=
  ∃ first last, first ∈ tokens.head? ∧ last ∈ tokens.getLast? ∧
    span = ⟨first.span.start, last.span.stop⟩

namespace Span.Covers

variable {span other : Span} {low high : List Token}

theorem single (token : Token) : token.span.Covers [token] := ⟨token, token, rfl, rfl, rfl⟩

theorem merge (first : span.Covers low) (middle : List Token) (second : other.Covers high)
    (order : Token.InOrder (low ++ (middle ++ high))) :
    (span.merge other).Covers (low ++ (middle ++ high)) := by
  obtain ⟨one, two, head, last, rfl⟩ := first
  obtain ⟨three, four, headHigh, lastHigh, rfl⟩ := second
  have isLow : ∀ token ∈ low, token ∈ low ++ (middle ++ high) := by simp +contextual
  have isHigh : ∀ token ∈ high, token ∈ middle ++ high := by simp +contextual
  have memberOne := List.mem_of_mem_head? head
  have memberFour := List.mem_of_mem_getLast? lastHigh
  have across := (List.pairwise_append.1 order.2).2.2
  refine ⟨one, four, ?_, ?_, ?_⟩
  · rw [List.head?_append, Option.mem_def.1 head]
    rfl
  · rw [List.getLast?_append, List.getLast?_append, Option.mem_def.1 lastHigh]
    rfl
  · have starts := across one memberOne three (isHigh three (List.mem_of_mem_head? headHigh))
    have stops := across two (List.mem_of_mem_getLast? last) four (isHigh four memberFour)
    have forward := order.1 one (isLow one memberOne)
    have forwardLast := order.1 four (List.mem_append_right low (isHigh four memberFour))
    simp only [Span.merge, Span.mk.injEq]
    omega

end Span.Covers

theorem Token.InOrder.of_sublist {tokens more : List Token} (order : InOrder more)
    (part : tokens.Sublist more) : InOrder tokens :=
  ⟨fun token member => order.1 token (part.subset member), order.2.sublist part⟩

namespace Groups

variable {tokens : List Token} {grouping : Grouping} {level : Nat} {node : Node}

theorem covers (groups : Groups tokens (.operand level node)) (order : Token.InOrder tokens) :
    node.span.Covers tokens := by
  -- the induction is over all groupings, of which lists of arguments are no operands
  generalize same : Grouping.operand level node = grouping at groups
  induction groups generalizing level node with
  | atom known =>
    cases same
    rw [(Parse.span_of_atom? known).1]
    exact .single _
  | @grouped _ opening closing tokens =>
    cases same
    rw [Node.span_withSpan]
    exact (Span.Covers.single opening).merge tokens (.single closing) order
  | @signed _ sign tokens op operand _ _ _ ih =>
    cases same
    have inner := ih (order.of_sublist (List.sublist_cons_self sign tokens)) rfl
    exact (Span.Covers.single sign).merge [] inner order
  | @joined _ _ between low high _ left right _ _ _ _ ihLeft ihRight =>
    cases same
    have first := ihLeft (order.of_sublist (List.sublist_append_left _ _)) rfl
    have second := ihRight (order.of_sublist
      ((List.sublist_cons_self between high).trans (List.sublist_append_right _ _))) rfl
    rw [Operator.span_join]
    exact first.merge [between] second order
  | @assigned equal low high _ _ _ _ _ _ ihLeft ihRight =>
    cases same
    have first := ihLeft (order.of_sublist (List.sublist_append_left _ _)) rfl
    have second := ihRight (order.of_sublist
      ((List.sublist_cons_self equal high).trans (List.sublist_append_right _ _))) rfl
    exact first.merge [equal] second order
  | @called _ opening closing low inner _ _ _ _ _ _ _ ih =>
    cases same
    have first := ih (order.of_sublist (List.sublist_append_left _ _)) rfl
    exact first.merge (opening :: inner) (.single closing) order
  | noArguments | lastArgument | moreArguments => cases same

/-! What is within an operand has its tokens among those of the operand -/

/-- Every part of an operand is one itself, of some tokens in a row. -/
theorem exists_part (groups : Groups tokens grouping) {outer inner : Node}
    (member : outer ∈ grouping.nodes) (contains : outer.Contains inner) :
    ∃ part, part <:+: tokens ∧ Groups part (.operand 0 inner) := by
  induction groups generalizing outer with
  | @atom level token node known =>
    obtain rfl := List.mem_singleton.1 member
    rcases contains.cases_child with rfl | ⟨child, isChild, _⟩
    · exact ⟨_, List.infix_rfl, .atom known⟩
    · rw [(Parse.span_of_atom? known).2] at isChild
      cases isChild
  | @grouped level opening closing tokens node left groups right ih =>
    obtain rfl := List.mem_singleton.1 member
    rcases contains.cases_child with rfl | ⟨child, isChild, within⟩
    · exact ⟨_, List.infix_rfl, .grouped left groups right⟩
    · rw [Node.children_withSpan] at isChild
      obtain ⟨part, isPart, found⟩ := ih (List.mem_singleton_self node) (.of_child isChild within)
      exact ⟨part, isPart.trans ⟨[opening], [closing], rfl⟩, found⟩
  | @signed level sign tokens op operand bound known groups ih =>
    obtain rfl := List.mem_singleton.1 member
    rcases contains.cases_child with rfl | ⟨child, isChild, within⟩
    · exact ⟨_, List.infix_rfl, .signed (Nat.zero_le 7) known groups⟩
    · obtain ⟨part, isPart, found⟩ := ih isChild within
      exact ⟨part, isPart.trans (List.infix_cons List.infix_rfl), found⟩
  | @joined level precedence between low high operator left right bound first known second ihLeft
      ihRight =>
    obtain rfl := List.mem_singleton.1 member
    rcases contains.cases_child with rfl | ⟨child, isChild, within⟩
    · exact ⟨_, List.infix_rfl, .joined (Nat.zero_le precedence) first known second⟩
    · rw [Operator.children_join] at isChild
      rcases List.mem_cons.1 isChild with rfl | isRight
      · obtain ⟨part, isPart, found⟩ := ihLeft (List.mem_singleton_self _) within
        exact ⟨part, isPart.trans (List.infix_append' [] low _), found⟩
      · obtain rfl := List.mem_singleton.1 isRight
        obtain ⟨part, isPart, found⟩ := ihRight (List.mem_singleton_self _) within
        exact ⟨part, isPart.trans ⟨low ++ [between], [], by simp⟩, found⟩
  -- the target is a name by now and no node, so only the value is below an assignment
  | @assigned equal low high span name value target same value' _ ihRight =>
    obtain rfl := List.mem_singleton.1 member
    rcases contains.cases_child with rfl | ⟨child, isChild, within⟩
    · exact ⟨_, List.infix_rfl, .assigned target same value'⟩
    · obtain ⟨part, isPart, found⟩ := ihRight isChild within
      exact ⟨part, isPart.trans ⟨low ++ [equal], [], by simp⟩, found⟩
  | @called level opening closing low inner' callee arguments bound first left groups right ihCallee
      ihArguments =>
    obtain rfl := List.mem_singleton.1 member
    rcases contains.cases_child with rfl | ⟨child, isChild, within⟩
    · exact ⟨_, List.infix_rfl, .called (Nat.zero_le 8) first left groups right⟩
    · rcases List.mem_cons.1 isChild with rfl | isArgument
      · obtain ⟨part, isPart, found⟩ := ihCallee (List.mem_singleton_self _) within
        exact ⟨part, isPart.trans (List.infix_append' [] low _), found⟩
      · obtain ⟨part, isPart, found⟩ := ihArguments isArgument within
        exact ⟨part, isPart.trans ⟨low ++ [opening], [closing], by simp⟩, found⟩
  | noArguments => cases member
  | lastArgument _ ih => exact ih member contains
  | @moreArguments comma low high first rest _ _ _ _ ihFirst ihRest =>
    rcases List.mem_cons.1 member with rfl | others
    · obtain ⟨part, isPart, found⟩ := ihFirst (List.mem_singleton_self _) contains
      exact ⟨part, isPart.trans (List.infix_append' [] low _), found⟩
    · obtain ⟨part, isPart, found⟩ := ihRest others contains
      exact ⟨part, isPart.trans ⟨low ++ [comma], [], by simp⟩, found⟩

end Groups

end Scriptlet
