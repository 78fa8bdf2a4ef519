import Scriptlet.Proofs.Contract
import Scriptlet.Proofs.Machine.Plan

/-! What is evaluated and done on the way of an evaluation, and the machines that it happens in. -/

set_option autoImplicit false

namespace Scriptlet

/-- A task that is evaluated in a machine, with the steps it is given. -/
structure Config where
  steps : Nat
  role : Role
  task : Task
  machine : Machine

/-- A plan that is followed from a machine comes to evaluate a task in another one. -/
inductive Plan.Calls (fuel : Nat) {α : Type} :
    Plan α → Machine → Role → Task → Machine → Prop where
  | here {role : Role} {part : Task} {next : part.Result → Plan α} {machine : Machine} :
    Calls fuel (.task role part next) machine role part (role.enter machine)
  | afterEffect {change : Effect} {next : change.Result → Plan α} {result : change.Result}
    {machine reached there : Machine} {role : Role} {part : Task} :
    change.run machine = .done result reached → Calls fuel (next result) reached role part there →
      Calls fuel (.effect change next) machine role part there
  | afterTask {first : Role} {task : Task} {next : task.Result → Plan α} {result : task.Result}
    {machine reached there : Machine} {role : Role} {part : Task} :
    first.around (task.run fuel) machine = .done result reached →
      Calls fuel (next result) reached role part there →
      Calls fuel (.task first task next) machine role part there

/-- A plan that is followed from a machine comes to an effect on another one. -/
inductive Plan.Performs (fuel : Nat) {α : Type} :
    Plan α → Machine → Effect → Machine → Prop where
  | here {change : Effect} {next : change.Result → Plan α} {machine : Machine} :
    Performs fuel (.effect change next) machine change machine
  | afterEffect {change : Effect} {next : change.Result → Plan α} {result : change.Result}
    {machine reached there : Machine} {later : Effect} :
    change.run machine = .done result reached → Performs fuel (next result) reached later there →
      Performs fuel (.effect change next) machine later there
  | afterTask {first : Role} {task : Task} {next : task.Result → Plan α} {result : task.Result}
    {machine reached there : Machine} {later : Effect} :
    first.around (task.run fuel) machine = .done result reached →
      Performs fuel (next result) reached later there →
      Performs fuel (.task first task next) machine later there

def Role.callCount (role : Role) : Nat :=
  match role with
  | body => 1
  | _ => 0

namespace Config

inductive Calls : Config → Config → Prop where
  | intro {fuel : Nat} {outer role : Role} {task part : Task} {machine there : Machine} :
    task.plan.Calls fuel machine role part there →
      Calls ⟨fuel + 1, outer, task, machine⟩ ⟨fuel, role, part, there⟩

inductive Performs : Config → Effect → Machine → Prop where
  | intro {fuel : Nat} {role : Role} {task : Task} {machine there : Machine} {change : Effect} :
    task.plan.Performs fuel machine change there →
      Performs ⟨fuel + 1, role, task, machine⟩ change there

/-- What is evaluated on the way of an evaluation, with the number of functions of the program that
were called on the way to it and are under way. -/
inductive Within (start : Config) : Nat → Config → Prop where
  | start : Within start 0 start
  | step {active : Nat} {config next : Config} :
    Within start active config → config.Calls next →
      Within start (active + next.role.callCount) next

theorem Within.under {start next config : Config} {active : Nat}
    (within : Within next active config) (calls : start.Calls next) :
    Within start (active + next.role.callCount) config := by
  -- on the way from the part on, in front of which the step to the part is put
  induction within with
  | start => exact Within.start.step calls
  | step _ later ih =>
    rw [Nat.add_right_comm]
    exact ih.step later

end Config

namespace Role

theorem around_apply {α : Type} (role : Role) (action : Evaluation α) (machine : Machine) :
    role.around action machine =
      match action (role.enter machine) with
      | .done value reached => .done value (role.leave reached)
      | .failed error reached => .failed error (role.leave reached)
      | .cutOff => .cutOff := by
  unfold around Action.around
  cases action (role.enter machine) <;> rfl

theorem meets_around {α : Type} {role : Role} {action : Evaluation α} {machine : Machine}
    {good : α → Machine → Prop} {bad : RuntimeError → Machine → Prop}
    (meets : (action (role.enter machine)).Meets
      (fun value reached => good value (role.leave reached))
      fun error reached => bad error (role.leave reached)) :
    (role.around action machine).Meets good bad :=
  Action.meets_around meets

end Role

/-! Where errors come from -/

theorem Plan.failed_cases {α : Type} {fuel : Nat} {plan : Plan α} {machine after : Machine}
    {error : RuntimeError} (failed : plan.run fuel machine = .failed error after) :
    (∃ change there reached, plan.Performs fuel machine change there ∧
      change.run there = .failed error reached) ∨
    ∃ role part there reached, plan.Calls fuel machine role part there ∧
      part.run fuel there = .failed error reached := by
  induction plan generalizing machine with
  | done value => cases failed
  | effect change next ih =>
    rw [run_effect] at failed
    rcases Action.bind_eq_failed_iff.mp failed with own | ⟨result, reached, done, later⟩
    · exact .inl ⟨change, machine, after, .here, own⟩
    · rcases ih result later with
        ⟨other, there, last, performs, own⟩ | ⟨role, part, there, last, calls, own⟩
      · exact .inl ⟨other, there, last, .afterEffect done performs, own⟩
      · exact .inr ⟨role, part, there, last, .afterEffect done calls, own⟩
  | task role part next ih =>
    rw [run] at failed
    rcases Action.bind_eq_failed_iff.mp failed with own | ⟨result, reached, done, later⟩
    -- that a call is no longer counted when it is left does not change how it has failed
    · rw [Role.around_apply] at own
      cases outcome : part.run fuel (role.enter machine) with
      | done value reached =>
        rw [outcome] at own
        cases own
      | failed found reached =>
        rw [outcome] at own
        cases own
        exact .inr ⟨role, part, _, reached, .here, outcome⟩
      | cutOff =>
        rw [outcome] at own
        cases own
    · rcases ih result later with
        ⟨other, there, last, performs, own⟩ | ⟨inner, other, there, last, calls, own⟩
      · exact .inl ⟨other, there, last, .afterTask done performs, own⟩
      · exact .inr ⟨inner, other, there, last, .afterTask done calls, own⟩

theorem Task.failed_from_effect {fuel : Nat} {task : Task} {machine after : Machine}
    {error : RuntimeError} (failed : task.run fuel machine = .failed error after) (role : Role) :
    ∃ active config change there reached,
      Config.Within ⟨fuel, role, task, machine⟩ active config ∧ config.Performs change there ∧
      change.run there = .failed error reached := by
  -- on the steps: the error is one of the plan's own effects, or of a task with fewer steps
  induction fuel generalizing role task machine after with
  | zero =>
    rw [Task.run_zero] at failed
    cases failed
  | succ fuel ih =>
    rw [Task.run_succ] at failed
    rcases Plan.failed_cases failed with
      ⟨change, there, reached, performs, own⟩ | ⟨inner, part, there, reached, calls, own⟩
    · exact ⟨0, _, change, there, reached, .start, .intro performs, own⟩
    · obtain ⟨active, config, change, last, lastReached, within, performs, own⟩ := ih own inner
      exact ⟨_, config, change, last, lastReached, within.under (.intro calls), performs, own⟩

/-! Where errors go -/

theorem Role.leave_eq (role : Role) (machine : Machine) :
    role.leave machine = { machine with depth := machine.depth - role.callCount } := by
  cases role <;> rfl

section

variable {α : Type} {fuel : Nat} {plan : Plan α} {machine there after : Machine}
  {error : RuntimeError}

theorem Plan.Performs.failed {change : Effect} (performs : plan.Performs fuel machine change there)
    (failed : change.run there = .failed error after) :
    plan.run fuel machine = .failed error after := by
  induction performs with
  | here => exact Action.bind_eq_failed_iff.mpr (.inl failed)
  | afterEffect done _ ih => exact Action.bind_eq_failed_iff.mpr (.inr ⟨_, _, done, ih failed⟩)
  | afterTask done _ ih => exact Action.bind_eq_failed_iff.mpr (.inr ⟨_, _, done, ih failed⟩)

theorem Plan.Calls.failed {role : Role} {part : Task}
    (calls : plan.Calls fuel machine role part there)
    (failed : part.run fuel there = .failed error after) :
    plan.run fuel machine = .failed error (role.leave after) := by
  induction calls with
  | here =>
    refine Action.bind_eq_failed_iff.mpr (.inl ?_)
    rw [Role.around_apply, failed]
  | afterEffect done _ ih => exact Action.bind_eq_failed_iff.mpr (.inr ⟨_, _, done, ih failed⟩)
  | afterTask done _ ih => exact Action.bind_eq_failed_iff.mpr (.inr ⟨_, _, done, ih failed⟩)

namespace Config

variable {start config : Config}

theorem Performs.failed {change : Effect} (performs : config.Performs change there)
    (failed : change.run there = .failed error after) :
    config.task.run config.steps config.machine = .failed error after := by
  cases performs with
  | intro performs =>
    rw [Task.run_succ]
    exact performs.failed failed

theorem Calls.failed {next : Config} (calls : config.Calls next)
    (failed : next.task.run next.steps next.machine = .failed error after) :
    config.task.run config.steps config.machine = .failed error (next.role.leave after) := by
  cases calls with
  | intro calls =>
    rw [Task.run_succ]
    exact calls.failed failed

/-- An error on the way goes all the way out. Nothing is done on its way but that calls which were
under way no longer count. -/
theorem Within.failed {active : Nat} (within : Within start active config)
    (failed : config.task.run config.steps config.machine = .failed error after) :
    start.task.run start.steps start.machine =
      .failed error { after with depth := after.depth - active } := by
  induction within generalizing after with
  | start => exact failed
  | step _ calls ih =>
    have outside := ih (calls.failed failed)
    rw [Role.leave_eq, Nat.sub_sub, Nat.add_comm] at outside
    exact outside

end Config

end

end Scriptlet
