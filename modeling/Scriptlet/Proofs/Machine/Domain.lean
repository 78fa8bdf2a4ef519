import Mathlib.Order.Basic
import Scriptlet.Proofs.Machine.Likeness

/-! Evaluations side by side that deal with the same scopes and functions, all of them from a domain
that grows as they go on.
-/

set_option autoImplicit false

namespace Scriptlet

/-- Scopes and functions that an evaluation may deal with. The scope of a function is one of them. -/
structure Domain where
  World : Type
  [order : Preorder World]
  scopes : World → ScopeId → Prop
  closures : World → Closure → Prop
  scopes_mono : ∀ {world later : World} {scope : ScopeId},
    world ≤ later → scopes world scope → scopes later scope
  closures_mono : ∀ {world later : World} {closure : Closure},
    world ≤ later → closures world closure → closures later closure
  captured : ∀ {world : World} {closure : Closure},
    closures world closure → scopes world closure.scope

attribute [instance] Domain.order

namespace Domain

def all : Domain where
  World := Unit
  order :=
    { le := fun _ _ => True
      lt := fun _ _ => False
      le_refl := fun _ => trivial
      le_trans := fun _ _ _ _ _ => trivial
      lt_iff_le_not_ge := by simp }
  scopes _ _ := True
  closures _ _ := True
  scopes_mono _ _ := trivial
  closures_mono _ _ := trivial
  captured _ := trivial

variable {D : Domain} {world : D.World}

/-- In a domain alike means equal. -/
def likeness (D : Domain) : Likeness where
  World := D.World
  scopes world a b := a = b ∧ D.scopes world a
  closures world a b := a = b ∧ D.closures world a
  scopes_mono before := And.imp_right (D.scopes_mono before)
  closures_mono before := And.imp_right (D.closures_mono before)
  code := by
    rintro world a _ ⟨rfl, _⟩
    exact ⟨rfl, rfl, rfl⟩
  captured := by
    rintro world a _ ⟨rfl, holds⟩
    exact ⟨rfl, D.captured holds⟩
  identity := by
    rintro world a _ c _ ⟨rfl, _⟩ ⟨rfl, _⟩
    rfl

def Values (D : Domain) (world : D.World) : Value → Prop
  | .closure closure => D.closures world closure
  | _ => True

def Signals (D : Domain) (world : D.World) : Signal → Prop
  | .returned value => D.Values world value
  | _ => True

structure Completions (D : Domain) (world : D.World) (completion : Completion) : Prop where
  value : D.Values world completion.value
  signal : D.Signals world completion.signal

def Tasks (D : Domain) (world : D.World) : Task → Prop
  | .node _ scope => D.scopes world scope
  | .operands _ scope => D.scopes world scope
  | .statements _ scope => D.scopes world scope
  | .rounds _ _ _ scope => D.scopes world scope
  | .call callee arguments _ => D.Values world callee ∧ ∀ value ∈ arguments, D.Values world value

def Results (D : Domain) (world : D.World) : (task : Task) → task.Result → Prop
  | .node .., completion => D.Completions world completion
  | .operands .., values => ∀ value ∈ values, D.Values world value
  | .statements .., completion => D.Completions world completion
  | .rounds .., completion => D.Completions world completion
  | .call .., value => D.Values world value

theorem values_of_isPlain {value : Value} (plain : value.IsPlain) : D.Values world value := by
  cases value with
  | closure made => cases plain
  | _ => trivial

theorem values_all (value : Value) : all.Values () value := by
  cases value <;> trivial

theorem tasks_all (task : Task) : all.Tasks () task := by
  cases task with
  | call callee arguments => exact ⟨values_all callee, fun value _ => values_all value⟩
  | _ => trivial

theorem values_mono {later : D.World} (before : world ≤ later) {value : Value}
    (holds : D.Values world value) : D.Values later value := by
  cases value with
  | closure made => exact D.closures_mono before holds
  | _ => trivial

theorem values_iff {x y : Value} : D.likeness.Values world x y ↔ x = y ∧ D.Values world x := by
  constructor
  · intro alike
    cases alike with
    | plain plain => exact ⟨rfl, values_of_isPlain plain⟩
    | closure alike => exact ⟨congrArg Value.closure alike.1, alike.2⟩
  · rintro ⟨rfl, holds⟩
    cases x with
    | closure made => exact .closure ⟨rfl, holds⟩
    | _ => exact .plain rfl

theorem valueLists_iff {xs ys : List Value} :
    D.likeness.ValueLists world xs ys ↔ xs = ys ∧ ∀ value ∈ xs, D.Values world value := by
  induction xs generalizing ys with
  | nil => simp [Likeness.ValueLists, eq_comm]
  | cons x xs ih =>
    cases ys with
    | nil => simp [Likeness.ValueLists]
    | cons y ys =>
      simp only [Likeness.ValueLists, List.forall₂_cons] at ih ⊢
      rw [values_iff, ih, List.cons.injEq, List.forall_mem_cons]
      tauto

theorem signals_of_alike {x y : Signal} (alike : D.likeness.Signals world x y) :
    x = y ∧ D.Signals world x := by
  cases alike with
  | returned alike =>
    obtain ⟨rfl, holds⟩ := values_iff.mp alike
    exact ⟨rfl, holds⟩
  | _ => exact ⟨rfl, trivial⟩

theorem completions_of_alike {x y : Completion} (alike : D.likeness.Completions world x y) :
    x = y ∧ D.Completions world x := by
  obtain ⟨sameValue, value⟩ := values_iff.mp alike.value
  obtain ⟨sameSignal, signal⟩ := signals_of_alike alike.signal
  cases x
  cases y
  exact ⟨by rw [Completion.mk.injEq]; exact ⟨sameValue, sameSignal⟩, value, signal⟩

theorem tasks_alike {task : Task} (holds : D.Tasks world task) :
    D.likeness.Tasks world task task := by
  cases task with
  | node => exact .node ⟨rfl, holds⟩
  | operands => exact .operands ⟨rfl, holds⟩
  | statements => exact .statements ⟨rfl, holds⟩
  | rounds => exact .rounds ⟨rfl, holds⟩
  | call => exact .call (values_iff.mpr ⟨rfl, holds.1⟩) (valueLists_iff.mpr ⟨rfl, holds.2⟩)

theorem tasks_of_alike {task : Task} (alike : D.likeness.Tasks world task task) :
    D.Tasks world task := by
  cases alike with
  | node alike => exact alike.2
  | operands alike => exact alike.2
  | statements alike => exact alike.2
  | rounds alike => exact alike.2
  | call callees arguments => exact ⟨(values_iff.mp callees).2, (valueLists_iff.mp arguments).2⟩

theorem results_of_alike {task : Task} {x y : task.Result}
    (alike : D.likeness.TaskResults world task task x y) : x = y ∧ D.Results world task x := by
  cases task with
  | operands => exact valueLists_iff.mp alike
  | call => exact values_iff.mp alike
  | _ => exact completions_of_alike alike

theorem options_of_alike {x y : Option Value}
    (alike : Option.Rel (D.likeness.Values world) x y) :
    x = y ∧ ∀ value ∈ x, D.Values world value := by
  cases alike with
  | some alike =>
    obtain ⟨rfl, holds⟩ := values_iff.mp alike
    exact ⟨rfl, fun _ member => Option.some.inj member ▸ holds⟩
  | none => exact ⟨rfl, by simp⟩

end Domain

end Scriptlet
