import Scriptlet.Proofs.Grammar.Soundness
import Scriptlet.Proofs.Tree.Forms

/-! The form of a program tells its tree, but for its spans. -/

set_option autoImplicit false

namespace Scriptlet

namespace WellFormed

open Node

theorem Expression.hasNames {node : Node} (sound : Expression node) : node.All HasNames := by
  induction sound with
  | number | string | boolean | nil => exact .intro trivial (List.forall_mem_nil _)
  | reference name => exact .intro name (List.forall_mem_nil _)
  | assign name _ value => exact .intro name (List.forall_mem_singleton.mpr value)
  | unary _ operand => exact .intro trivial (List.forall_mem_singleton.mpr operand)
  | binary _ _ left right | logical _ _ left right =>
    exact .intro trivial (List.forall_mem_cons.mpr ⟨left, List.forall_mem_singleton.mpr right⟩)
  | call _ _ callee arguments =>
    exact .intro trivial (List.forall_mem_cons.mpr ⟨callee, arguments⟩)

theorem Initializer.hasNames {node : Node} (sound : Initializer node) : node.All HasNames := by
  cases sound with
  | expression sound => exact sound.hasNames
  | declare name value => exact .intro name (List.forall_mem_singleton.mpr value.hasNames)

theorem Statement.hasNames {inLoop : Bool} {node : Node} (sound : Statement inLoop node) :
    node.All HasNames := by
  induction sound with
  | expression sound => exact sound.hasNames
  | declare name value => exact (Initializer.declare name value).hasNames
  | function name parameters _ body => exact .intro ⟨name, parameters⟩ body
  | block _ statements => exact .intro trivial statements
  | ifThen condition _ thenBranch | whileLoop condition _ thenBranch =>
    exact .intro trivial
      (List.forall_mem_cons.mpr ⟨condition.hasNames, List.forall_mem_singleton.mpr thenBranch⟩)
  | ifElse condition _ _ _ thenBranch elseBranch =>
    exact .intro trivial (List.forall_mem_cons.mpr
      ⟨condition.hasNames, List.forall_mem_cons.mpr
        ⟨thenBranch, List.forall_mem_singleton.mpr elseBranch⟩⟩)
  | forLoop first condition _ increment body =>
    refine .intro trivial (List.forall_mem_append.mpr ⟨fun node member => ?_, ?_⟩)
    · exact (first node (Option.mem_toList.mp member)).hasNames
    · exact List.forall_mem_singleton.mpr (.intro trivial (List.forall_mem_cons.mpr
        ⟨condition.hasNames, List.forall_mem_cons.mpr
          ⟨body, List.forall_mem_singleton.mpr increment.hasNames⟩⟩))
  | returning value =>
    exact .intro trivial fun node member => (value node (Option.mem_toList.mp member)).hasNames
  | breaking | continuing => exact .intro trivial (List.forall_mem_nil _)

theorem Program.hasNames {tree : Node} (sound : Program tree) : tree.All HasNames := by
  cases sound with
  | program statements => exact .intro trivial fun node member => (statements node member).hasNames

end WellFormed

/-- Two programs of finite numbers with the same form are the same tree, but for their spans. -/
theorem bare_eq_of_form {source other : List Char} {tree twin : Node}
    (read : readProgram source = .ok tree) (readOther : readProgram other = .ok twin)
    (finite : tree.All Node.HasFinite) (finiteTwin : twin.All Node.HasFinite)
    (same : tree.form = twin.form) : tree.bare = twin.bare := by
  have legible : tree.IsLegible := ⟨(WellFormed.Program.of_readProgram read).hasNames, finite⟩
  have legibleTwin : twin.IsLegible :=
    ⟨(WellFormed.Program.of_readProgram readOther).hasNames, finiteTwin⟩
  have texts : tree.nested.text = twin.nested.text := by
    rw [← Node.toList_form, ← Node.toList_form, same]
  exact Node.bare_eq_of_nested legible legibleTwin
    (NestedList.eq_of_text (Node.readable_nested legible) (Node.readable_nested legibleTwin) texts)

theorem bare_eq_of_spaced_call :
    ∃ tree twin, readProgram "if (a) x=f(1.5,y);".toList = .ok tree ∧
      readProgram "if ( a )  x = f( 1.50 , y );".toList = .ok twin ∧
      tree.All Node.HasFinite ∧ twin.All Node.HasFinite ∧ tree.form = twin.form ∧
      tree.bare = twin.bare := by
  have reads (source : String)
      (known : (readProgram source.toList).toOption.map
          (fun tree => (tree.form, decide (∀ entry ∈ tree.outline, entry.2.HasFinite))) =
        some ("(program (if a (= x (call f 1.5 y))))", true)) :
      ∃ tree, readProgram source.toList = .ok tree ∧
        tree.form = "(program (if a (= x (call f 1.5 y))))" ∧ tree.All Node.HasFinite := by
    cases read : readProgram source.toList with
    | error fault =>
      rw [read] at known
      cases known
    | ok tree =>
      rw [read] at known
      obtain ⟨form, finite⟩ := Prod.mk.inj (Option.some.inj known)
      exact ⟨tree, rfl, form, .of_outline (decide_eq_true_iff.mp finite)⟩
  obtain ⟨tree, read, form, finite⟩ := reads "if (a) x=f(1.5,y);" (by decide +kernel)
  obtain ⟨twin, readOther, formOther, finiteTwin⟩ :=
    reads "if ( a )  x = f( 1.50 , y );" (by decide +kernel)
  have same : tree.form = twin.form := form.trans formOther.symm
  exact ⟨tree, twin, read, readOther, finite, finiteTwin, same,
    bare_eq_of_form read readOther finite finiteTwin same⟩

end Scriptlet
