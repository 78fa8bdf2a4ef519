import Scriptlet.Action

/-! What actions come to: one condition for values, one for errors, none for being cut off. Of two
actions side by side: conditions for what both come to.
-/

set_option autoImplicit false

namespace Scriptlet

variable {ε σ α β : Type}

/-- A value and its state are `good`, an error and its state `bad`. -/
def Outcome.Meets (good : α → σ → Prop) (bad : ε → σ → Prop) : Outcome ε σ α → Prop
  | .done value state => good value state
  | .failed error state => bad error state
  | .cutOff => True

namespace Outcome

variable {good : α → σ → Prop} {bad : ε → σ → Prop}

theorem Meets.mono {outcome : Outcome ε σ α} (meets : outcome.Meets good bad)
    {better : α → σ → Prop} {worse : ε → σ → Prop}
    (values : ∀ value state, good value state → better value state)
    (errors : ∀ error state, bad error state → worse error state) :
    outcome.Meets better worse := by
  cases outcome with
  | done value state => exact values value state meets
  | failed error state => exact errors error state meets
  | cutOff => trivial

theorem Meets.imp {outcome : Outcome ε σ α} (meets : outcome.Meets good bad)
    {better : α → σ → Prop} (values : ∀ value state, good value state → better value state) :
    outcome.Meets better bad :=
  meets.mono values fun _ _ holds => holds

theorem Meets.and {better : α → σ → Prop} {worse : ε → σ → Prop} {outcome : Outcome ε σ α}
    (first : outcome.Meets good bad) (second : outcome.Meets better worse) :
    outcome.Meets (fun value state => good value state ∧ better value state)
      fun error state => bad error state ∧ worse error state := by
  cases outcome with
  | done value state => exact ⟨first, second⟩
  | failed error state => exact ⟨first, second⟩
  | cutOff => trivial

theorem meets_self (outcome : Outcome ε σ α) :
    outcome.Meets (fun value state => outcome = .done value state)
      fun error state => outcome = .failed error state := by
  cases outcome with
  | done | failed => exact rfl
  | cutOff => trivial

theorem Meets.exists_done {outcome : Outcome ε σ α}
    (meets : outcome.Meets good fun _ _ => False) (ends : outcome ≠ .cutOff) :
    ∃ value state, outcome = .done value state ∧ good value state := by
  cases outcome with
  | done value state => exact ⟨value, state, rfl, meets⟩
  | failed error state => exact meets.elim
  | cutOff => exact absurd rfl ends

theorem Meets.result {outcome : Outcome ε σ α} {expected : Except ε α}
    (meets : outcome.Meets (fun value _ => expected = .ok value) fun error _ => expected = .error error)
    (ends : outcome ≠ .cutOff) : (outcome.result ends).1 = expected := by
  cases outcome with
  | done | failed => exact meets.symm
  | cutOff => exact absurd rfl ends

end Outcome

namespace Action

variable {good : β → σ → Prop} {bad : ε → σ → Prop}

theorem meets_bind {middle : α → σ → Prop} {first : Action ε σ α} {next : α → Action ε σ β}
    {state : σ} (meets : (first state).Meets middle bad)
    (goesOn : ∀ value reached, middle value reached → (next value reached).Meets good bad) :
    ((first >>= next) state).Meets good bad := by
  rw [bind_apply]
  cases outcome : first state with
  | done value reached =>
    rw [outcome] at meets
    exact goesOn value reached meets
  | failed error reached =>
    rw [outcome] at meets
    exact meets
  | cutOff => trivial

theorem meets_bind_of_done {first : Action ε σ α} {next : α → Action ε σ β} {state reached : σ}
    {value : α} (done : first state = .done value reached)
    (goesOn : (next value reached).Meets good bad) :
    ((first >>= next) state).Meets good bad := by
  rw [bind_apply, done]
  exact goesOn

theorem ne_cutOff_of_bind {first : Action ε σ α} {next : α → Action ε σ β} {state : σ}
    (ends : (first >>= next) state ≠ .cutOff) : first state ≠ .cutOff := by
  intro cut
  rw [bind_apply, cut] at ends
  exact ends rfl

theorem meets_around {before after : σ → σ} {action : Action ε σ β} {state : σ}
    (meets : (action (before state)).Meets (fun value reached => good value (after reached))
      fun error reached => bad error (after reached)) :
    (around before after action state).Meets good bad := by
  unfold around
  cases outcome : action (before state) with
  | done value reached =>
    rw [outcome] at meets
    exact meets
  | failed error reached =>
    rw [outcome] at meets
    exact meets
  | cutOff => trivial

end Action

/-! Two actions side by side -/

/-- Two outcomes of the same kind, unless the first is an error by which it is `lost`. Values and
their states are `good`; errors are equal and their states `bad`. -/
def Outcome.Pairs (good : α → β → σ → σ → Prop) (bad : σ → σ → Prop) (lost : ε → Prop)
    (first : Outcome ε σ α) (second : Outcome ε σ β) : Prop :=
  match first with
  | .done value state =>
    ∃ other reached, second = .done other reached ∧ good value other state reached
  | .failed error state => lost error ∨ ∃ reached, second = .failed error reached ∧ bad state reached
  | .cutOff => second = .cutOff

namespace Outcome.Pairs

variable {good : α → β → σ → σ → Prop} {bad : σ → σ → Prop} {lost : ε → Prop}

theorem mono {first : Outcome ε σ α} {second : Outcome ε σ β}
    (pairs : Pairs good bad lost first second)
    {better : α → β → σ → σ → Prop} {worse : σ → σ → Prop}
    (values : ∀ value other state reached, good value other state reached →
      better value other state reached)
    (errors : ∀ state reached, bad state reached → worse state reached) :
    Pairs better worse lost first second := by
  cases first with
  | done value state =>
    obtain ⟨other, reached, same, holds⟩ := pairs
    exact ⟨other, reached, same, values value other state reached holds⟩
  | failed error state =>
    rcases pairs with isLost | ⟨reached, same, holds⟩
    · exact .inl isLost
    · exact .inr ⟨reached, same, errors state reached holds⟩
  | cutOff => exact pairs

theorem cutOff_iff {first : Outcome ε σ α} {second : Outcome ε σ β}
    (pairs : Pairs good bad (fun _ => False) first second) :
    first = .cutOff ↔ second = .cutOff := by
  cases first with
  | done value state =>
    obtain ⟨other, reached, rfl, _⟩ := pairs
    simp
  | failed error state =>
    obtain ⟨reached, rfl, _⟩ := pairs.resolve_left id
    simp
  | cutOff => exact iff_of_true rfl pairs

theorem and_meets {first : Outcome ε σ α} {second : Outcome ε σ β}
    (pairs : Pairs good bad lost first second) {own : α → σ → Prop} {other : β → σ → Prop}
    {worse worst : ε → σ → Prop} (one : first.Meets own worse) (two : second.Meets other worst) :
    Pairs (fun x y state reached => good x y state reached ∧ own x state ∧ other y reached) bad lost
      first second := by
  cases first with
  | done value state =>
    obtain ⟨same, reached, rfl, holds⟩ := pairs
    exact ⟨same, reached, rfl, holds, one, two⟩
  | failed error state => exact pairs
  | cutOff => exact pairs

theorem meets {first : Outcome ε σ α} {second : Outcome ε σ β}
    (pairs : Pairs good bad lost first second) :
    first.Meets (fun value state => ∃ other reached, good value other state reached)
      fun error state => lost error ∨ ∃ reached, bad state reached := by
  cases first with
  | done value state =>
    obtain ⟨other, reached, _, holds⟩ := pairs
    exact ⟨other, reached, holds⟩
  | failed error state => exact pairs.imp_right fun ⟨reached, _, holds⟩ => ⟨reached, holds⟩
  | cutOff => trivial

end Outcome.Pairs

namespace Action

variable {γ δ : Type} {bad : σ → σ → Prop} {lost : ε → Prop}

theorem pairs_bind {middle : α → β → σ → σ → Prop} {good : γ → δ → σ → σ → Prop}
    {first : Action ε σ α} {second : Action ε σ β} {next : α → Action ε σ γ}
    {after : β → Action ε σ δ} {state other : σ}
    (pairs : (first state).Pairs middle bad lost (second other))
    (goesOn : ∀ a b reached there, middle a b reached there →
      (next a reached).Pairs good bad lost (after b there)) :
    ((first >>= next) state).Pairs good bad lost ((second >>= after) other) := by
  rw [bind_apply, bind_apply]
  cases outcome : first state with
  | done a reached =>
    rw [outcome] at pairs
    obtain ⟨b, there, same, holds⟩ := pairs
    rw [same]
    exact goesOn a b reached there holds
  | failed error reached =>
    rw [outcome] at pairs
    rcases pairs with isLost | ⟨there, same, holds⟩
    · exact .inl isLost
    · rw [same]
      exact .inr ⟨there, rfl, holds⟩
  | cutOff =>
    rw [outcome] at pairs
    rw [show second other = .cutOff from pairs]
    rfl

theorem pairs_around {good : α → β → σ → σ → Prop} {before after : σ → σ} {first : Action ε σ α}
    {second : Action ε σ β} {state other : σ}
    (pairs : (first (before state)).Pairs
      (fun a b reached there => good a b (after reached) (after there))
      (fun reached there => bad (after reached) (after there)) lost (second (before other))) :
    (around before after first state).Pairs good bad lost (around before after second other) := by
  unfold around
  cases outcome : first (before state) with
  | done a reached =>
    rw [outcome] at pairs
    obtain ⟨b, there, same, holds⟩ := pairs
    rw [same]
    exact ⟨b, after there, rfl, holds⟩
  | failed error reached =>
    rw [outcome] at pairs
    rcases pairs with isLost | ⟨there, same, holds⟩
    · exact .inl isLost
    · rw [same]
      exact .inr ⟨after there, rfl, holds⟩
  | cutOff =>
    rw [outcome] at pairs
    rw [show second (before other) = .cutOff from pairs]
    rfl

end Action

end Scriptlet
