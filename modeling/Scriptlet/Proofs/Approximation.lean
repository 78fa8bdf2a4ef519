import Scriptlet.Action

/-! Actions that agree as far as one of them is not cut off.

An action given few steps is below the same action given more of them, and sequences of actions
are ordered part by part.
-/

set_option autoImplicit false

namespace Scriptlet

variable {ε σ α β : Type}

/-- The first outcome is the second one, or tells nothing. -/
def Outcome.Below (first second : Outcome ε σ α) : Prop := first = .cutOff ∨ first = second

namespace Outcome.Below

theorem refl (outcome : Outcome ε σ α) : Below outcome outcome := .inr rfl

theorem trans {first second third : Outcome ε σ α} (low : Below first second)
    (high : Below second third) : Below first third := by
  rcases low with cut | same
  · exact .inl cut
  · exact same ▸ high

theorem eq_of_ne_cutOff {first second : Outcome ε σ α} (below : Below first second)
    (ends : first ≠ .cutOff) : second = first :=
  (below.resolve_left ends).symm

end Outcome.Below

namespace Action

/-- From every state the first action does what the second one does, unless it is cut off. -/
def Below (first second : Action ε σ α) : Prop :=
  ∀ state, Outcome.Below (first state) (second state)

theorem Below.refl (action : Action ε σ α) : Below action action := fun _ => .refl _

theorem cutOff_below (action : Action ε σ α) : Below cutOff action := fun _ => .inl rfl

theorem bind_below_at {first second : Action ε σ α} {next after : α → Action ε σ β} {state : σ}
    {other : σ} (low : Outcome.Below (first state) (second other))
    (goesOn : ∀ value reached, first state = .done value reached →
      Outcome.Below (next value reached) (after value reached)) :
    Outcome.Below ((first >>= next) state) ((second >>= after) other) := by
  rw [bind_apply, bind_apply]
  cases outcome : first state with
  | done value reached =>
    rw [low.eq_of_ne_cutOff (by simp [outcome]), outcome]
    exact goesOn value reached outcome
  | failed error reached =>
    rw [low.eq_of_ne_cutOff (by simp [outcome]), outcome]
    exact .refl _
  | cutOff => exact .inl rfl

theorem bind_below_of_done {first : Action ε σ α} {next : α → Action ε σ β} {state reached : σ}
    {value : α} (low : Outcome.Below (first state) (.done value reached)) :
    Outcome.Below ((first >>= next) state) (next value reached) := by
  rw [bind_apply]
  rcases low with cut | same
  · rw [cut]
    exact .inl rfl
  · rw [same]
    exact .refl _

theorem Below.bind {first second : Action ε σ α} {next after : α → Action ε σ β}
    (low : Below first second) (goesOn : ∀ value, Below (next value) (after value)) :
    Below (first >>= next) (second >>= after) :=
  fun state => bind_below_at (low state) fun value reached _ => goesOn value reached

end Action

end Scriptlet
