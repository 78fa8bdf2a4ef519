/-! Computations over a state that end with a value, end with an error, or are cut off.

An error keeps the state that was reached. A computation that is cut off says nothing, neither a
value nor an error: it was given too few steps.
-/

set_option autoImplicit false

namespace Scriptlet

inductive Outcome (ε σ α : Type) where
  | done (value : α) (state : σ)
  | failed (error : ε) (state : σ)
  | cutOff

namespace Outcome

/-- The value or the error of what was not cut off, and the state reached. -/
def result {ε σ α : Type} :
    (outcome : Outcome ε σ α) → outcome ≠ cutOff → Except ε α × σ
  | done value state, _ => (.ok value, state)
  | failed error state, _ => (.error error, state)
  | cutOff, ends => absurd rfl ends

theorem result_eq_ok_iff {ε σ α : Type} {outcome : Outcome ε σ α} (ends : outcome ≠ cutOff)
    {value : α} {state : σ} :
    outcome.result ends = (.ok value, state) ↔ outcome = done value state := by
  cases outcome with
  | done found reached => simp [result]
  | failed found reached => simp [result]
  | cutOff => exact absurd rfl ends

theorem result_eq_error_iff {ε σ α : Type} {outcome : Outcome ε σ α} (ends : outcome ≠ cutOff)
    {error : ε} {state : σ} :
    outcome.result ends = (.error error, state) ↔ outcome = failed error state := by
  cases outcome with
  | done found reached => simp [result]
  | failed found reached => simp [result]
  | cutOff => exact absurd rfl ends

end Outcome

def Action (ε σ α : Type) : Type := σ → Outcome ε σ α

namespace Action

variable {ε σ α β : Type}

@[always_inline, inline]
protected def pure (value : α) : Action ε σ α := fun state => .done value state

@[always_inline, inline]
protected def bind (first : Action ε σ α) (next : α → Action ε σ β) : Action ε σ β := fun state =>
  match first state with
  | .done value state => next value state
  | .failed error state => .failed error state
  | .cutOff => .cutOff

@[always_inline]
instance : Monad (Action ε σ) where
  pure := Action.pure
  bind := Action.bind

@[always_inline, inline]
def fail (error : ε) : Action ε σ α := fun state => .failed error state

@[always_inline, inline]
def cutOff : Action ε σ α := fun _ => .cutOff

@[always_inline, inline]
def read (part : σ → α) : Action ε σ α := fun state => .done (part state) state

@[always_inline, inline]
def update (change : σ → σ) : Action ε σ Unit := fun state => .done () (change state)

/-- Change the state before and after an action, however it ends. -/
@[always_inline, inline]
def around (before after : σ → σ) (action : Action ε σ α) : Action ε σ α := fun state =>
  match action (before state) with
  | .done value state => .done value (after state)
  | .failed error state => .failed error (after state)
  | .cutOff => .cutOff

theorem bind_apply (first : Action ε σ α) (next : α → Action ε σ β) (state : σ) :
    (first >>= next) state =
      match first state with
      | .done value state => next value state
      | .failed error state => .failed error state
      | .cutOff => .cutOff := rfl

theorem pure_apply (value : α) (state : σ) :
    (pure value : Action ε σ α) state = .done value state := rfl

theorem bind_eq_done_iff {first : Action ε σ α} {next : α → Action ε σ β} {state after : σ}
    {value : β} :
    (first >>= next) state = .done value after ↔
      ∃ middle reached, first state = .done middle reached ∧
        next middle reached = .done value after := by
  rw [bind_apply]
  cases first state with
  | done middle reached =>
    constructor
    · intro rest
      exact ⟨middle, reached, rfl, rest⟩
    · rintro ⟨_, _, same, rest⟩
      cases same
      exact rest
  | failed error reached => simp
  | cutOff => simp

theorem bind_eq_failed_iff {first : Action ε σ α} {next : α → Action ε σ β} {state after : σ}
    {error : ε} :
    (first >>= next) state = .failed error after ↔
      first state = .failed error after ∨
        ∃ middle reached, first state = .done middle reached ∧
          next middle reached = .failed error after := by
  rw [bind_apply]
  cases first state with
  | done middle reached =>
    constructor
    · intro rest
      exact .inr ⟨middle, reached, rfl, rest⟩
    · rintro (same | ⟨_, _, same, rest⟩)
      · cases same
      · cases same
        exact rest
  | failed error reached => simp
  | cutOff => simp

theorem bind_pure_self (action : Action ε σ α) : action >>= pure = action := by
  funext state
  rw [bind_apply]
  cases action state <;> rfl

theorem bind_bind {γ : Type} (action : Action ε σ α) (first : α → Action ε σ β)
    (second : β → Action ε σ γ) :
    action >>= first >>= second = action >>= fun value => first value >>= second := by
  funext state
  simp only [bind_apply]
  cases action state <;> rfl

instance : LawfulMonad (Action ε σ) :=
  LawfulMonad.mk' (Action ε σ) bind_pure_self (fun _ _ => rfl) bind_bind

end Action

end Scriptlet
