import Scriptlet.Proofs.Machine.Preservation

/-! Trees that leave a round of the loop around them by a `continue`. -/

set_option autoImplicit false

namespace Scriptlet

/-- A `continue` that is meant for the loop around a tree, and for none within it. -/
inductive Node.Continues : Node → Prop where
  | here {span : Span} : Continues (.continue span)
  | block {span : Span} {statements : List Node} {statement : Node} :
    statement ∈ statements → Continues statement → Continues (.block span statements)
  | thenBranch {span : Span} {condition thenBranch : Node} {elseBranch : Option Node} :
    Continues thenBranch → Continues (.branch span condition thenBranch elseBranch)
  | elseBranch {span : Span} {condition thenBranch elseBranch : Node} :
    Continues elseBranch → Continues (.branch span condition thenBranch (some elseBranch))
  | program {span : Span} {statements : List Node} {statement : Node} :
    statement ∈ statements → Continues statement → Continues (.program span statements)

/-- How a task can be left: only where there is a `continue`, by that, and expressions only at their
end. -/
def Task.Leaves : (task : Task) → task.Result → Prop
  | node tree _, completion =>
    (completion.signal = .continued → tree.Continues) ∧
      (tree.isExpression = true → completion.signal = .normal)
  | statements nodes _, completion =>
    completion.signal = .continued → ∃ node ∈ nodes, Node.Continues node
  | rounds .., completion => completion.signal ≠ .continued
  | operands .., _ => True
  | call .., _ => True

def leavingContract : Contract := .ofResults Task.Leaves

theorem Task.Yields.leaves {task : Task} {result : task.Result}
    (yields : task.Yields ⟨fun _ _ => True, Task.Leaves⟩ result) : task.Leaves result := by
  cases yields with
  | node => exact ⟨by rintro ⟨⟩, fun _ => rfl⟩
  | block given =>
    refine ⟨fun continued => ?_, by rintro ⟨⟩⟩
    obtain ⟨statement, member, continues⟩ := given continued
    exact .block member continues
  | thenBranch given => exact ⟨fun continued => .thenBranch (given.1 continued), by rintro ⟨⟩⟩
  | elseBranch given => exact ⟨fun continued => .elseBranch (given.1 continued), by rintro ⟨⟩⟩
  -- a loop catches every `continue` that is meant for it
  | loop given => exact ⟨fun continued => absurd continued given, by rintro ⟨⟩⟩
  | program given =>
    refine ⟨fun continued => ?_, by rintro ⟨⟩⟩
    obtain ⟨statement, member, continues⟩ := given continued
    exact .program member continues
  | returnsNil => exact ⟨by rintro ⟨⟩, by rintro ⟨⟩⟩
  | returns => exact ⟨by rintro ⟨⟩, by rintro ⟨⟩⟩
  | breaks => exact ⟨by rintro ⟨⟩, by rintro ⟨⟩⟩
  | continues => exact ⟨fun _ => .here, by rintro ⟨⟩⟩
  | noStatements => rintro ⟨⟩
  | @statements first rest scope completion given =>
    intro continued
    obtain ⟨statement, member, continues⟩ := given continued
    exact ⟨statement, List.mem_cons_of_mem first member, continues⟩
  | @early first rest scope completion given =>
    exact fun continued => ⟨first, List.mem_cons_self, given.1 continued⟩
  | finished => rintro ⟨⟩
  | returnsFrom => rintro ⟨⟩
  | again given => exact given
  | _ => trivial

theorem leavingContract_sound : leavingContract.Sound :=
  Contract.ofResults_sound Task.Yields.leaves

end Scriptlet
