import Scriptlet.Tree.Outline

/-! What is within a tree, down to its last part. -/

set_option autoImplicit false

namespace Scriptlet.Node

/-- What a tree is made of, itself and all that is within it. -/
inductive Contains (tree : Node) : Node → Prop where
  | self : tree.Contains tree
  | child {node child : Node} :
    tree.Contains node → child ∈ node.children → tree.Contains child

namespace Contains

theorem cases_child {tree node : Node} (contains : tree.Contains node) :
    node = tree ∨ ∃ child ∈ tree.children, child.Contains node := by
  induction contains with
  | self => exact .inl rfl
  | @child node inner _ member ih =>
    rcases ih with rfl | ⟨child, isChild, within⟩
    · exact .inr ⟨inner, member, .self⟩
    · exact .inr ⟨child, isChild, within.child member⟩

theorem of_child {tree child node : Node} (member : child ∈ tree.children)
    (contains : child.Contains node) : tree.Contains node := by
  induction contains with
  | self => exact .child .self member
  | child _ inner ih => exact .child ih inner

end Contains

theorem children_withSpan (span : Span) (node : Node) :
    (node.withSpan span).children = node.children := by
  cases node <;> rfl

theorem span_withSpan (span : Span) (node : Node) : (node.withSpan span).span = span := by
  cases node <;> rfl

def All (holds : Node → Prop) (tree : Node) : Prop := ∀ node, tree.Contains node → holds node

namespace All

variable {holds : Node → Prop} {tree : Node}

theorem intro (self : holds tree) (children : ∀ child ∈ tree.children, child.All holds) :
    tree.All holds := by
  intro node contains
  rcases contains.cases_child with rfl | ⟨child, member, within⟩
  · exact self
  · exact children child member node within

theorem imp (all : tree.All holds) {other : Node → Prop}
    (implies : ∀ node, holds node → other node) : tree.All other :=
  fun node contains => implies node (all node contains)

end All

theorem sizeOf_lt_of_mem_children {tree child : Node} (member : child ∈ tree.children) :
    sizeOf child < sizeOf tree := by
  have inList {nodes : List Node} (member : child ∈ nodes) : sizeOf child < sizeOf nodes :=
    List.sizeOf_lt_of_mem member
  have inOption {node : Option Node} (found : node = some child) : sizeOf child < sizeOf node := by
    rw [found, Option.some.sizeOf_spec]
    omega
  cases tree <;>
    simp only [children, List.mem_cons, List.not_mem_nil, Option.mem_toList, or_false] at member <;>
    simp only [assign.sizeOf_spec, declare.sizeOf_spec, unary.sizeOf_spec, binary.sizeOf_spec,
      logical.sizeOf_spec, call.sizeOf_spec, function.sizeOf_spec, block.sizeOf_spec,
      branch.sizeOf_spec, loop.sizeOf_spec, return.sizeOf_spec, program.sizeOf_spec]
  case assign | declare | unary =>
    subst member
    omega
  case binary | logical => rcases member with rfl | rfl <;> omega
  case call =>
    rcases member with rfl | inside
    · omega
    · have smaller := inList inside
      omega
  case function | block | program =>
    have smaller := inList member
    omega
  case branch | loop =>
    rcases member with rfl | rfl | found
    · omega
    · omega
    · have smaller := inOption found
      omega
  case «return» =>
    have smaller := inOption member
    omega

@[elab_as_elim]
theorem induction_on_children {motive : Node → Prop}
    (step : ∀ tree : Node, (∀ child ∈ tree.children, motive child) → motive tree) (tree : Node) :
    motive tree :=
  step tree fun child _ => induction_on_children step child
termination_by sizeOf tree
decreasing_by exact sizeOf_lt_of_mem_children ‹_›

/-! Outlines -/

theorem eachAndBeneath_eq (depth : Nat) (nodes : List Node) :
    eachAndBeneath depth nodes =
      nodes.flatMap fun node => (depth, node) :: node.beneath (depth + 1) := by
  induction nodes with
  | nil => rfl
  | cons node rest ih => rw [eachAndBeneath, ih, List.flatMap_cons]

theorem anyAndBeneath_eq (depth : Nat) (node : Option Node) :
    anyAndBeneath depth node =
      node.toList.flatMap fun node => (depth, node) :: node.beneath (depth + 1) := by
  cases node with
  | none => rfl
  | some node => exact (List.append_nil _).symm

theorem beneath_eq (depth : Nat) (tree : Node) :
    tree.beneath depth =
      tree.children.flatMap fun child => (depth, child) :: child.beneath (depth + 1) := by
  cases tree <;> simp [beneath, children, eachAndBeneath_eq, anyAndBeneath_eq]

theorem Contains.mem_outline {tree node : Node} (contains : tree.Contains node) :
    ∃ depth, (depth, node) ∈ tree.outline := by
  have beneath (depth : Nat) : node = tree ∨ ∃ deeper, (deeper, node) ∈ tree.beneath depth := by
    induction tree using induction_on_children generalizing depth with
    | step tree ih =>
      rcases contains.cases_child with same | ⟨child, member, within⟩
      · exact .inl same
      · right
        rw [beneath_eq]
        rcases ih child member within (depth + 1) with rfl | ⟨deeper, found⟩
        · exact ⟨depth, List.mem_flatMap.mpr ⟨node, member, List.mem_cons_self⟩⟩
        · exact ⟨deeper, List.mem_flatMap.mpr ⟨child, member, List.mem_cons_of_mem _ found⟩⟩
  rcases beneath 1 with rfl | ⟨deeper, found⟩
  · exact ⟨0, List.mem_cons_self⟩
  · exact ⟨deeper, List.mem_cons_of_mem _ found⟩

theorem All.of_outline {holds : Node → Prop} {tree : Node}
    (listed : ∀ entry ∈ tree.outline, holds entry.2) : tree.All holds := by
  intro node contains
  obtain ⟨depth, member⟩ := contains.mem_outline
  exact listed (depth, node) member

end Scriptlet.Node
