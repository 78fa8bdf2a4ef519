import Scriptlet.Proofs.Grammar.Parts
import Scriptlet.Proofs.Grammar.Regrouping
import Scriptlet.Proofs.Grammar.Shifting

/-! The text at an expression's span, read by itself, is that expression. -/

set_option autoImplicit false

namespace Scriptlet

/-! Every expression of a program is an operand of some of its tokens -/

namespace Node

/-- An expression is an operand of some tokens in a row, unless it stands for a condition that is not
there. -/
def Comes (root : Node) (tokens : List Token) (node : Node) : Prop :=
  node.isExpression = true →
    root.IsSupplied node ∨ ∃ part, part <:+: tokens ∧ Groups part (.operand 0 node)

variable {root node : Node} {tokens : List Token}

theorem Comes.of_noExpression (noExpression : node.isExpression = false) :
    root.Comes tokens node := by
  intro isExpression
  rw [noExpression] at isExpression
  cases isExpression

theorem Stems.comes (stems : root.Stems tokens node) : root.Comes tokens node := by
  cases stems with
  | supplied _ _ within => exact fun _ => .inl ⟨rfl, _, _, _, within⟩
  | operand isPart groups => exact fun _ => .inr ⟨_, isPart, groups⟩
  | loop => exact .of_noExpression rfl
  | statement isPart derives =>
    cases derives with
    | @ended semicolon tokens _ found =>
      cases found with
      | expression groups =>
        have isTokens : tokens <:+: tokens ++ [semicolon] := ⟨[], [semicolon], rfl⟩
        exact fun _ => .inr ⟨_, isTokens.trans isPart, groups⟩
    | unended found =>
      cases found with
      | expression groups => exact fun _ => .inr ⟨_, isPart, groups⟩
    | _ => exact .of_noExpression rfl

end Node

theorem Derives.comes {root : Node} {tokens : List Token} {phrase : Phrase}
    (derives : Derives tokens phrase) (belongs : phrase.Belongs root) :
    ∀ node ∈ phrase.nodes, node.All (root.Comes tokens) :=
  fun node member => (derives.stems belongs node member).imp fun _ => Node.Stems.comes

/-! The text of an operand's tokens is read as the operand is -/

theorem Stream.Whole.shift {stream : Stream} (whole : stream.Whole) (distance : Nat) :
    (stream.shift distance).Whole := by
  induction stream with
  | token head rest ih => exact ⟨whole.1, ih whole.2⟩
  | ending | fault => trivial
  | exhausted => exact whole

namespace Reader

theorem whole_shift {reader : Reader} (whole : reader.Whole) (distance : Nat) :
    (reader.shift distance).Whole ∧
      (reader.shift distance).ahead = reader.ahead.shift distance := by
  constructor
  · rcases whole with ⟨offset, ending⟩ | ⟨goesOn, rest⟩
    · refine .inl ⟨offset + distance, ?_⟩
      rw [Reader.shift, ending]
      rfl
    · exact .inr ⟨goesOn, rest.shift distance⟩
  · unfold ahead
    by_cases ends : reader.current.kind = .endOfInput
    · rw [if_pos ends, if_pos (show (reader.shift distance).current.kind = _ from ends)]
      rfl
    · rw [if_neg ends, if_neg (show (reader.shift distance).current.kind ≠ _ from ends)]
      rfl

end Reader

theorem Kind.stops_endOfInput (level : Nat) : Kind.endOfInput.Stops level where
  noCall := by simp
  looser precedence operator known := by cases known
  noEqual _ := by simp

/-- Where a text holds the tokens of an operand and no others, it is read as this operand, at its
place. -/
theorem Groups.reads_text {tokens : List Token} {node : Node} {text : List Char} {start stop : Nat}
    (groups : Groups tokens (.operand 0 node))
    (cuts : Stream.Cuts start text (Stream.after tokens (.ending stop))) :
    ∃ reader found after, Reader.start text = .ok reader ∧
      reader.expression = (.ok found, after) ∧ after.current.kind = .endOfInput ∧
      node = found.shift start := by
  have scanned := cuts.eq_shift.symm
  have started : ∃ reader, Reader.start text = .ok reader := by
    obtain ⟨head, others, rfl⟩ := List.exists_cons_of_ne_nil groups.ne_nil
    cases start : Reader.start text with
    | ok reader => exact ⟨reader, rfl⟩
    | error fault =>
      rw [Reader.start_eq_error_iff.1 start] at scanned
      cases scanned
  obtain ⟨reader, started⟩ := started
  -- moved to where the operand stands, the text is read as the operand is
  obtain ⟨whole, front⟩ := Reader.whole_start started
  obtain ⟨wholeMoved, frontMoved⟩ := Reader.whole_shift whole start
  rw [front, scanned] at frontMoved
  obtain ⟨after, leads, _, last⟩ := Reader.exists_leads wholeMoved frontMoved (by simp)
  have ends := Reader.kind_of_ahead_ending last
  have stops : after.current.kind.Stops 0 := ends ▸ Kind.stops_endOfInput 0
  have finds := groups.found.whole _ after leads stops (reader.shift start).fuel
  have moves := Parse.moves_expression start reader.fuel (reader.shift start).fuel
  rw [moves reader reader.expression_ends (reader.shift start).expression_ends] at finds
  cases read : Parse.expression reader.fuel reader with
  | done found reached =>
    rw [read] at finds
    obtain ⟨same, rfl⟩ := finds
    refine ⟨reader, found, reached, started, ?_, ends, same.symm⟩
    exact (Outcome.result_eq_ok_iff reader.expression_ends).mpr read
  | failed error reached =>
    rw [read] at finds
    exact finds.elim
  | cutOff => exact absurd read reader.expression_ends

/-- Every expression of a program is that of the text at its span, moved to where that starts; only the
condition that a `for` loop does without has no text. -/
theorem Node.Contains.excerpt_reads {source : List Char} {tree node : Node}
    (contains : tree.Contains node) (read : readProgram source = .ok tree)
    (isExpression : node.isExpression = true) :
    tree.IsSupplied node ∨
      ∃ text reader found after, node.span.slice? source = some text ∧
        Reader.start text = .ok reader ∧ reader.expression = (.ok found, after) ∧
        after.current.kind = .endOfInput ∧ node = found.shift node.span.start := by
  obtain ⟨tokens, offset, statements, scanned, rfl, derives⟩ := derives_of_readProgram read
  have belongs : Phrase.Belongs (.program ⟨0, offset⟩ statements) (.statements statements) :=
    fun child member => .child .self member
  have comes : Node.All (Node.Comes (.program ⟨0, offset⟩ statements) tokens)
      (.program ⟨0, offset⟩ statements) :=
    .intro (.of_noExpression rfl) (derives.comes belongs)
  refine (comes node contains isExpression).imp_right ?_
  rintro ⟨part, ⟨before, behind, rfl⟩, groups⟩
  obtain ⟨head, others, rfl⟩ := List.exists_cons_of_ne_nil groups.ne_nil
  have cuts := Stream.cuts_scan 0 source
  rw [scanned, Stream.after_append, Stream.after_append] at cuts
  -- the text before the operand, that of its tokens, and what follows
  obtain ⟨before, rest, rfl, left⟩ := cuts.drop
  obtain ⟨gap, text, after, stop, rfl, starts, stops, isLast, cutText, _⟩ := left.take
  obtain ⟨first, last, isFirst, isEnd, span⟩ := groups.covers cutText.inOrder
  cases isFirst
  rw [Nat.zero_add, ← byteWidth_append] at starts
  rw [isLast last isEnd, stops, starts, ← byteWidth_append] at span
  have slice := Span.slice?_append (before ++ gap) text after
  rw [← span, List.append_assoc before gap] at slice
  obtain ⟨reader, found, reached, started, result, ends, same⟩ := groups.reads_text cutText
  refine ⟨text, reader, found, reached, slice, started, result, ends, ?_⟩
  rw [span, ← starts]
  exact same

/-- An operand takes the parentheses around it, but not the semicolon behind. -/
theorem conjunction_is_excerpt :
    let source := " (a) && b;".toList
    ∃ tree node reader found after, readProgram source = .ok tree ∧ tree.Contains node ∧
      node.isExpression = true ∧ node.span.slice? source = some "(a) && b".toList ∧
      Reader.start "(a) && b".toList = .ok reader ∧ reader.expression = (.ok found, after) ∧
      after.current.kind = .endOfInput ∧ node = found.shift 1 := by
  intro source
  have shape : (readProgram source).toOption.map
      (fun tree => tree.children.map fun node => (node.isExpression, node.span)) =
      some [(true, ⟨1, 9⟩)] := by decide +kernel
  cases read : readProgram source with
  | error error =>
    rw [read] at shape
    cases shape
  | ok tree =>
    rw [read] at shape
    obtain ⟨node, below, same⟩ := List.map_eq_singleton_iff.1 (Option.some.inj shape)
    obtain ⟨isExpression, span⟩ := Prod.mk.inj same
    have contains : tree.Contains node := .child .self (below ▸ List.mem_singleton_self node)
    rcases contains.excerpt_reads read isExpression with
      ⟨supplied, _⟩ | ⟨text, reader, found, after, slice, started, result, ends, moved⟩
    · -- what stands for a missing condition has an empty span
      have point := (congrArg Node.span supplied).symm
      rw [span] at point
      cases point
    · rw [span] at slice moved
      have cut : Span.slice? ⟨1, 9⟩ source = some "(a) && b".toList := by decide
      obtain rfl := Option.some.inj (slice.symm.trans cut)
      exact ⟨tree, node, reader, found, after, rfl, contains, isExpression, span ▸ slice, started,
        result, ends, moved⟩

end Scriptlet
