import Scriptlet.Tree.Basic

/-! Trees up to the places they were read from. -/

set_option autoImplicit false

namespace Scriptlet.Node

mutual

def mapSpans (change : Span → Span) : Node → Node
  | .number span value => .number (change span) value
  | .string span text => .string (change span) text
  | .boolean span value => .boolean (change span) value
  | .nil span => .nil (change span)
  | .reference span name => .reference (change span) name
  | .assign span name value => .assign (change span) name (mapSpans change value)
  | .declare span name value => .declare (change span) name (mapSpans change value)
  | .unary span op operand => .unary (change span) op (mapSpans change operand)
  | .binary span op left right =>
    .binary (change span) op (mapSpans change left) (mapSpans change right)
  | .logical span op left right =>
    .logical (change span) op (mapSpans change left) (mapSpans change right)
  | .call span callee arguments =>
    .call (change span) (mapSpans change callee) (mapSpansEach change arguments)
  | .function span name parameters body =>
    .function (change span) name parameters (mapSpansEach change body)
  | .block span statements => .block (change span) (mapSpansEach change statements)
  | .branch span condition thenBranch elseBranch =>
    .branch (change span) (mapSpans change condition) (mapSpans change thenBranch)
      (mapSpansIfAny change elseBranch)
  | .loop span condition body increment =>
    .loop (change span) (mapSpans change condition) (mapSpans change body)
      (mapSpansIfAny change increment)
  | .return span value => .return (change span) (mapSpansIfAny change value)
  | .break span => .break (change span)
  | .continue span => .continue (change span)
  | .program span statements => .program (change span) (mapSpansEach change statements)

def mapSpansEach (change : Span → Span) : List Node → List Node
  | [] => []
  | node :: rest => mapSpans change node :: mapSpansEach change rest

def mapSpansIfAny (change : Span → Span) : Option Node → Option Node
  | none => none
  | some node => some (mapSpans change node)

end

theorem mapSpansEach_eq_map (change : Span → Span) (nodes : List Node) :
    mapSpansEach change nodes = nodes.map (mapSpans change) := by
  induction nodes with
  | nil => rfl
  | cons node rest ih => rw [mapSpansEach, ih, List.map_cons]

theorem mapSpansIfAny_eq_map (change : Span → Span) (node : Option Node) :
    mapSpansIfAny change node = node.map (mapSpans change) := by
  cases node <;> rfl

theorem exists_mem_of_mapSpansEach_eq {change : Span → Span} {nodes others : List Node}
    (same : mapSpansEach change others = mapSpansEach change nodes) {other : Node}
    (member : other ∈ others) :
    ∃ node ∈ nodes, mapSpans change other = mapSpans change node := by
  rw [mapSpansEach_eq_map, mapSpansEach_eq_map] at same
  have mapped := List.mem_map_of_mem (f := mapSpans change) member
  rw [same] at mapped
  obtain ⟨node, found, equal⟩ := List.mem_map.mp mapped
  exact ⟨node, found, equal.symm⟩

/-- The tree alone: two trees that differ in their spans at most have the same one. -/
def bare (node : Node) : Node := node.mapSpans fun _ => Span.point 0

theorem bare_withSpan (span : Span) (node : Node) : (node.withSpan span).bare = node.bare := by
  cases node <;> rfl

end Scriptlet.Node
