import Scriptlet.Proofs.Approximation
import Scriptlet.Proofs.Contract

/-! What actions come to when they are given enough steps.

An action that ends at all comes to the same with any more steps, so what it comes to in the end is
an action in its own right, one that is cut off where no number of steps is enough.
-/

set_option autoImplicit false

namespace Scriptlet

variable {ε σ α β : Type}

def Outcome.isCutOff : Outcome ε σ α → Bool
  | cutOff => true
  | _ => false

theorem Outcome.isCutOff_iff (outcome : Outcome ε σ α) :
    outcome.isCutOff = true ↔ outcome = cutOff := by
  cases outcome <;> simp [isCutOff]

instance Outcome.decidableCutOff (outcome : Outcome ε σ α) : Decidable (outcome = cutOff) :=
  decidable_of_iff _ outcome.isCutOff_iff

theorem Outcome.Below.antisymm {first second : Outcome ε σ α} (low : Below first second)
    (high : Below second first) : first = second := by
  rcases low with cut | same
  · rw [cut] at high ⊢
    exact (high.elim id id).symm
  · exact same

namespace Action

/-- More steps tell the same or more. -/
def Rises (family : Nat → Action ε σ α) : Prop :=
  ∀ low high, low ≤ high → Below (family low) (family high)

/-- An outcome that a family has from some number of steps on. -/
def Settles (family : Nat → Action ε σ α) (state : σ) (outcome : Outcome ε σ α) : Prop :=
  ∃ bound, ∀ steps, bound ≤ steps → family steps state = outcome

section

variable {family : Nat → Action ε σ α} {state : σ}

theorem Settles.unique {first second : Outcome ε σ α} (one : Settles family state first)
    (other : Settles family state second) : first = second := by
  obtain ⟨low, fromLow⟩ := one
  obtain ⟨high, fromHigh⟩ := other
  rw [← fromLow (max low high) (Nat.le_max_left low high),
    ← fromHigh (max low high) (Nat.le_max_right low high)]

theorem Rises.settles_of_ends (rises : Rises family) {steps : Nat}
    (ends : family steps state ≠ .cutOff) : Settles family state (family steps state) :=
  ⟨steps, fun more enough => (rises steps more enough state).eq_of_ne_cutOff ends⟩

theorem Rises.exists_settles (rises : Rises family) (state : σ) :
    ∃ outcome, Settles family state outcome := by
  by_cases ends : ∃ steps, family steps state ≠ .cutOff
  · obtain ⟨steps, ends⟩ := ends
    exact ⟨_, rises.settles_of_ends ends⟩
  · simp only [ne_eq, not_exists, Classical.not_not] at ends
    exact ⟨.cutOff, 0, fun steps _ => ends steps⟩

open Classical in
/-- What a family comes to with enough steps. -/
noncomputable def eventually (family : Nat → Action ε σ α) : Action ε σ α := fun state =>
  if settles : ∃ outcome, Settles family state outcome then settles.choose else .cutOff

theorem eventually_eq {outcome : Outcome ε σ α} (settles : Settles family state outcome) :
    eventually family state = outcome := by
  have known : ∃ outcome, Settles family state outcome := ⟨outcome, settles⟩
  rw [eventually, dif_pos known]
  exact known.choose_spec.unique settles

theorem Rises.settles (rises : Rises family) (state : σ) :
    Settles family state (eventually family state) := by
  obtain ⟨outcome, settles⟩ := rises.exists_settles state
  rwa [eventually_eq settles]

theorem Rises.exists_steps (rises : Rises family) (state : σ) :
    ∃ steps, eventually family state = family steps state := by
  obtain ⟨bound, settled⟩ := rises.settles state
  exact ⟨bound, (settled bound (Nat.le_refl bound)).symm⟩

theorem Rises.eventually_of_ends (rises : Rises family) {steps : Nat}
    (ends : family steps state ≠ .cutOff) : eventually family state = family steps state :=
  eventually_eq (rises.settles_of_ends ends)

theorem Rises.below_eventually (rises : Rises family) (steps : Nat) :
    Below (family steps) (eventually family) := by
  intro state
  by_cases ends : family steps state = .cutOff
  · exact .inl ends
  · exact .inr (rises.eventually_of_ends ends).symm

theorem Rises.eventually_below (rises : Rises family) {action : Action ε σ α}
    (below : ∀ steps, Below (family steps) action) : Below (eventually family) action := by
  intro state
  obtain ⟨steps, same⟩ := rises.exists_steps state
  rw [same]
  exact below steps state

end

/-! Families made of families -/

theorem rises_const (action : Action ε σ α) : Rises fun _ => action :=
  fun _ _ _ => Below.refl action

theorem eventually_const (action : Action ε σ α) : (eventually fun _ => action) = action := by
  funext state
  exact eventually_eq ⟨0, fun _ _ => rfl⟩

theorem Rises.eventually_succ {family : Nat → Action ε σ α} (rises : Rises family) :
    (eventually fun steps => family (steps + 1)) = eventually family := by
  funext state
  obtain ⟨bound, settled⟩ := rises.settles state
  exact eventually_eq ⟨bound, fun steps enough => settled (steps + 1) (Nat.le_succ_of_le enough)⟩

section

variable {first : Nat → Action ε σ α} {next : Nat → α → Action ε σ β}

theorem Rises.bind (rises : Rises first) (later : ∀ value, Rises fun steps => next steps value) :
    Rises fun steps => first steps >>= next steps :=
  fun low high more => (rises low high more).bind fun value => later value low high more

theorem eventually_bind (rises : Rises first)
    (later : ∀ value, Rises fun steps => next steps value) :
    (eventually fun steps => first steps >>= next steps) =
      eventually first >>= fun value => eventually fun steps => next steps value := by
  funext state
  obtain ⟨bound, settled⟩ := rises.settles state
  rw [bind_apply]
  -- from the larger of two bounds on, both parts are settled
  cases outcome : eventually first state with
  | done value reached =>
    obtain ⟨second, settledLater⟩ := (later value).settles reached
    refine eventually_eq ⟨max bound second, fun steps enough => ?_⟩
    change (first steps >>= next steps) state = _
    rw [bind_apply, settled steps (Nat.le_trans (Nat.le_max_left bound second) enough), outcome]
    exact settledLater steps (Nat.le_trans (Nat.le_max_right bound second) enough)
  | failed error reached =>
    refine eventually_eq ⟨bound, fun steps enough => ?_⟩
    change (first steps >>= next steps) state = _
    rw [bind_apply, settled steps enough, outcome]
  | cutOff =>
    refine eventually_eq ⟨bound, fun steps enough => ?_⟩
    change (first steps >>= next steps) state = _
    rw [bind_apply, settled steps enough, outcome]

end

section

variable {family : Nat → Action ε σ α} (before after : σ → σ)

theorem Rises.around (rises : Rises family) :
    Rises fun steps => Action.around before after (family steps) := by
  intro low high more state
  change Outcome.Below (Action.around before after (family low) state)
    (Action.around before after (family high) state)
  unfold Action.around
  rcases rises low high more (before state) with cut | same
  · rw [cut]
    exact .inl rfl
  · rw [same]
    exact .refl _

theorem eventually_around (rises : Rises family) :
    (eventually fun steps => Action.around before after (family steps)) =
      Action.around before after (eventually family) := by
  funext state
  obtain ⟨bound, settled⟩ := rises.settles (before state)
  refine eventually_eq ⟨bound, fun steps enough => ?_⟩
  simp only [Action.around, settled steps enough]

end

/-! Families side by side -/

theorem pairs_eventually {good : α → β → σ → σ → Prop} {bad : σ → σ → Prop} {lost : ε → Prop}
    {first : Nat → Action ε σ α} {second : Nat → Action ε σ β} (rises : Rises first)
    (risesToo : Rises second) {state other : σ}
    (pairs : ∀ steps, (first steps state).Pairs good bad lost (second steps other)) :
    (eventually first state).Pairs good bad lost (eventually second other) := by
  obtain ⟨low, settled⟩ := rises.settles state
  obtain ⟨high, settledToo⟩ := risesToo.settles other
  rw [← settled (max low high) (Nat.le_max_left low high),
    ← settledToo (max low high) (Nat.le_max_right low high)]
  exact pairs (max low high)

/-- With some number of steps one family ends if and only if the other one does, and then what they
come to agrees. -/
structure EndAlike (agree : Outcome ε σ α → Outcome ε σ β → Prop)
    (first : Nat → Outcome ε σ α) (second : Nat → Outcome ε σ β) : Prop where
  forth : ∀ steps, first steps ≠ .cutOff →
    ∃ others, second others ≠ .cutOff ∧ agree (first steps) (second others)
  back : ∀ steps, second steps ≠ .cutOff →
    ∃ others, first others ≠ .cutOff ∧ agree (first others) (second steps)

theorem EndAlike.of_eventually {good : α → β → σ → σ → Prop} {bad : σ → σ → Prop}
    {first : Nat → Action ε σ α} {second : Nat → Action ε σ β} (rises : Rises first)
    (risesToo : Rises second) {state other : σ}
    (pairs : (eventually first state).Pairs good bad (fun _ => False) (eventually second other)) :
    EndAlike (Outcome.Pairs good bad fun _ => False) (fun steps => first steps state)
      fun steps => second steps other where
  forth steps ends := by
    obtain ⟨others, same⟩ := risesToo.exists_steps other
    rw [rises.eventually_of_ends ends, same] at pairs
    exact ⟨others, fun cut => ends (pairs.cutOff_iff.mpr cut), pairs⟩
  back steps ends := by
    obtain ⟨others, same⟩ := rises.exists_steps state
    rw [risesToo.eventually_of_ends ends, same] at pairs
    exact ⟨others, fun cut => ends (pairs.cutOff_iff.mp cut), pairs⟩

end Action

end Scriptlet
