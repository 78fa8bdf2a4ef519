import Scriptlet.Proofs.Machine.Domain
import Scriptlet.Proofs.Machine.Request
import Scriptlet.Proofs.Machine.Simulation

/-! The limit on calls, and two machines that differ in nothing else. -/

set_option autoImplicit false

namespace Scriptlet

def Machine.withLimit (limit : Nat) (machine : Machine) : Machine := { machine with limit := limit }

def Outcome.withLimit {ε α : Type} (limit : Nat) : Outcome ε Machine α → Outcome ε Machine α
  | .done value machine => .done value (machine.withLimit limit)
  | .failed error machine => .failed error (machine.withLimit limit)
  | .cutOff => .cutOff

def Failure.isOverflow : Failure → Bool
  | runtime error => error.isOverflow
  | _ => false

/-- One outcome has ended in an overflow, or the other is the same, though under another limit. -/
def Outcome.Lasts {ε α : Type} (overflow : ε → Bool) (limit : Nat)
    (first second : Outcome ε Machine α) : Prop :=
  (∃ error machine, first = .failed error machine ∧ overflow error = true) ∨
    second = first.withLimit limit

theorem Outcome.Lasts.mapError {α : Type} {limit : Nat}
    {first second : Outcome RuntimeError Machine α}
    (lasts : Lasts RuntimeError.isOverflow limit first second) :
    Lasts Failure.isOverflow limit (first.mapError .runtime) (second.mapError .runtime) := by
  rcases lasts with ⟨error, machine, rfl, overflow⟩ | rfl
  · exact .inl ⟨.runtime error, machine, rfl, overflow⟩
  · exact .inr (by cases first <;> rfl)

/-! A machine under a low limit beside one under a higher limit -/

def limitSimulation (low high : Nat) : Simulation Domain.all.likeness where
  machines _ a b := a.limit = low ∧ b = a.withLimit high
  lost error := error.isOverflow = true

theorem limitSimulation_sound {low high : Nat} (raised : low ≤ high) :
    (limitSimulation low high).Sound where
  enter role together := by
    obtain ⟨limit, rfl⟩ := together
    cases role <;> exact ⟨limit, rfl⟩
  leave role together := by
    obtain ⟨limit, rfl⟩ := together
    cases role <;> exact ⟨limit, rfl⟩
  lookUp := by
    rintro _ a _ s _ name span ⟨limit, rfl⟩ ⟨rfl, _⟩
    unfold Simulation.DoAlike Effect.run Evaluation.lookUp
    dsimp only [Machine.withLimit]
    cases a.store.get s name span with
    | ok value =>
      have alike := Domain.values_iff.mpr ⟨rfl, Domain.values_all value⟩
      exact Simulation.pairs_done le_rfl alike ⟨limit, rfl⟩
    | error error => exact Simulation.pairs_failed _ ⟨limit, rfl⟩
  assign := by
    rintro _ a _ s _ x y name span ⟨limit, rfl⟩ ⟨rfl, _⟩ values
    obtain ⟨rfl, _⟩ := Domain.values_iff.mp values
    unfold Simulation.DoAlike Effect.run Evaluation.assign
    dsimp only [Machine.withLimit]
    cases a.store.owner? s name with
    | some owner => exact Simulation.pairs_done le_rfl trivial ⟨limit, rfl⟩
    | none => exact Simulation.pairs_failed _ ⟨limit, rfl⟩
  define := by
    rintro _ a _ s _ x y name ⟨limit, rfl⟩ ⟨rfl, _⟩ values
    obtain ⟨rfl, _⟩ := Domain.values_iff.mp values
    exact Simulation.pairs_done le_rfl trivial ⟨limit, rfl⟩
  openScope := by
    rintro _ a _ s _ ⟨limit, rfl⟩ ⟨rfl, _⟩
    exact Simulation.pairs_done le_rfl ⟨rfl, trivial⟩ ⟨limit, rfl⟩
  makeClosure := by
    rintro _ a _ s _ name parameters body ⟨limit, rfl⟩ ⟨rfl, _⟩
    exact Simulation.pairs_done le_rfl ⟨rfl, trivial⟩ ⟨limit, rfl⟩
  checkDepth := by
    rintro _ a _ span ⟨limit, rfl⟩
    unfold Simulation.DoAlike Effect.run Evaluation.checkDepth
    dsimp only [Machine.withLimit]
    -- where the lower limit lets a call pass, the higher one does
    by_cases full : a.limit ≤ a.depth
    · rw [if_pos full]
      exact .inl rfl
    · rw [if_neg full, if_neg (by omega)]
      exact Simulation.pairs_done le_rfl trivial ⟨limit, rfl⟩
  callNative := by
    rintro _ a _ xs ys native span ⟨limit, rfl⟩ values
    obtain ⟨rfl, _⟩ := Domain.valueLists_iff.mp values
    unfold Simulation.DoAlike Effect.run Evaluation.callNative
    dsimp only [Machine.withLimit]
    cases a.behaviours[native.identity]? with
    | none => exact Simulation.pairs_failed _ ⟨limit, rfl⟩
    | some behaviour =>
      dsimp only
      cases behaviour xs span a.host with
      | done value host =>
        have alike := Domain.values_iff.mpr ⟨rfl, Domain.values_all value⟩
        exact Simulation.pairs_done le_rfl alike ⟨limit, rfl⟩
      | failed error host => exact Simulation.pairs_failed _ ⟨limit, rfl⟩
      | cutOff => rfl

theorem Simulation.Pairs.lasts {low high : Nat} {α : Type} {good : Unit → α → α → Prop}
    {first second : Outcome RuntimeError Machine α}
    (pairs : (limitSimulation low high).Pairs () good first second)
    (same : ∀ x y, good () x y → x = y) :
    first.Lasts RuntimeError.isOverflow high second := by
  cases first with
  | done x a =>
    obtain ⟨y, b, rfl, _, _, results, _, rfl⟩ := pairs
    exact .inr (by rw [same x y results]; rfl)
  | failed error a =>
    rcases pairs with lost | ⟨b, rfl, _, _, _, rfl⟩
    · exact .inl ⟨error, a, rfl, lost⟩
    · exact .inr rfl
  | cutOff => exact .inr pairs

theorem Task.lasts_run {low high : Nat} (raised : low ≤ high) (fuel : Nat) (task : Task)
    (machine : Machine) :
    (task.run fuel (machine.withLimit low)).Lasts RuntimeError.isOverflow high
      (task.run fuel (machine.withLimit high)) := by
  have alike := Domain.tasks_alike (Domain.tasks_all task)
  apply ((limitSimulation_sound raised).run fuel alike ⟨rfl, rfl⟩).lasts
  exact fun x y results => (Domain.results_of_alike results).1

theorem Evaluation.lasts_execute {low high : Nat} (raised : low ≤ high) (fuel : Nat) (tree : Node)
    (machine : Machine) :
    (execute fuel tree (machine.withLimit low)).Lasts RuntimeError.isOverflow high
      (execute fuel tree (machine.withLimit high)) := by
  have sound := limitSimulation_sound raised
  rw [execute_eq, ← Plan.run_program]
  have alike : Domain.all.likeness.Plans
      (fun world => Option.Rel (Domain.all.likeness.Values world)) ()
      (.program tree.toplevel none) (.program tree.toplevel none) :=
    Likeness.plans_program tree.toplevel ⟨rfl, trivial⟩ .none
  apply (sound.plan (sound.run fuel) alike ⟨rfl, rfl⟩).lasts
  exact fun x y results => (Domain.options_of_alike results).1

/-- Nothing but an overflow depends on the limit. What is evaluated under some limit and does not end
in an overflow comes to the same under any higher limit: the same value or the same error, and the
same machine but for its limit. -/
theorem Machine.limit_shows_in_overflows_only {low high : Nat} (raised : low ≤ high) (fuel : Nat)
    (machine : Machine) :
    (∀ source, ((machine.withLimit low).run fuel source).Lasts Failure.isOverflow high
      ((machine.withLimit high).run fuel source)) ∧
    (∀ tree, (Evaluation.execute fuel tree (machine.withLimit low)).Lasts RuntimeError.isOverflow
      high (Evaluation.execute fuel tree (machine.withLimit high))) ∧
    (∀ tree scope, (Evaluation.evaluate fuel tree scope (machine.withLimit low)).Lasts
      RuntimeError.isOverflow high
      (Evaluation.evaluate fuel tree scope (machine.withLimit high))) ∧
    ∀ callee arguments span,
      (Evaluation.call fuel callee arguments span (machine.withLimit low)).Lasts
        RuntimeError.isOverflow high
        (Evaluation.call fuel callee arguments span (machine.withLimit high)) := by
  refine ⟨fun source => ?_, fun tree => ?_, fun tree scope => ?_, fun callee arguments span => ?_⟩
  · rw [Machine.run, Machine.run]
    cases readProgram source with
    | error error => exact .inr rfl
    | ok tree => exact (Evaluation.lasts_execute raised fuel tree machine).mapError
  · exact Evaluation.lasts_execute raised fuel tree machine
  · exact Task.lasts_run raised fuel (.node tree scope) machine
  · exact Task.lasts_run raised fuel (.call callee arguments span) machine

def Value.idle : Value := .closure ⟨0, "idle", [], [], Machine.root⟩

theorem Evaluation.call_idle {machine : Machine} (allowed : machine.depth < machine.limit)
    (span : Span) :
    call 2 .idle [] span machine =
      .done .nil { machine with store := (machine.store.addFrame (some Machine.root)).2 } := by
  have deeper : ¬machine.limit ≤ machine.depth := Nat.not_le_of_lt allowed
  simp [call, runEach, Value.idle, checkArity, Arity.accepts, checkDepth, deeper, openScope, bindEach,
    oneDeeper, Action.around, normally, Action.bind_apply, Action.pure_apply]

theorem idleCall_lasts :
    1 ≤ 512 ∧ ∃ after,
      Evaluation.call 2 .idle [] (Span.point 0)
        ((Machine.start 1 .unlimited ⟨fun _ => some 0⟩).withLimit 1) = .done .nil after ∧
      Evaluation.call 2 .idle [] (Span.point 0)
        ((Machine.start 1 .unlimited ⟨fun _ => some 0⟩).withLimit 512) =
          .done .nil (after.withLimit 512) := by
  have raised : 1 ≤ 512 := by decide
  have allowed : ((Machine.start 1 .unlimited ⟨fun _ => some 0⟩).withLimit 1).depth < 1 := by decide
  have under := Evaluation.call_idle allowed (Span.point 0)
  obtain ⟨_, _, _, calls⟩ :=
    Machine.limit_shows_in_overflows_only raised 2 (.start 1 .unlimited ⟨fun _ => some 0⟩)
  rcases calls .idle [] (Span.point 0) with ⟨error, machine, failed, _⟩ | same
  · rw [under] at failed
    cases failed
  · rw [under] at same
    exact ⟨raised, _, under, same⟩

end Scriptlet
