import Scriptlet.Proofs.Eventual
import Scriptlet.Proofs.Machine.Preservation
import Scriptlet.Proofs.Machine.Simulation

/-! What tasks come to when they are given enough steps, and loops lap by lap. -/

set_option autoImplicit false

namespace Scriptlet

/-! More steps tell more -/

theorem Role.around_below {α : Type} (role : Role) {first second : Evaluation α}
    (below : Action.Below first second) : Action.Below (role.around first) (role.around second) := by
  intro machine
  rw [around_apply, around_apply]
  rcases below (role.enter machine) with cut | same
  · rw [cut]
    exact .inl rfl
  · rw [same]
    exact .refl _

theorem Plan.run_below {low high : Nat}
    (tasks : ∀ task : Task, Action.Below (task.run low) (task.run high)) {α : Type}
    (plan : Plan α) : Action.Below (plan.run low) (plan.run high) := by
  induction plan with
  | done value => exact .refl _
  | effect change next ih => exact (Action.Below.refl _).bind ih
  | task role part next ih => exact (role.around_below (tasks part)).bind ih

theorem Task.run_below (task : Task) {low high : Nat} (more : low ≤ high) :
    Action.Below (task.run low) (task.run high) := by
  -- both have made a step before they come to the plan
  induction low generalizing task high with
  | zero =>
    intro machine
    rw [run_zero]
    exact .inl rfl
  | succ low ih =>
    obtain ⟨high, rfl⟩ : ∃ least, high = least + 1 := ⟨high - 1, by omega⟩
    rw [run_succ, run_succ]
    exact Plan.run_below (fun part => ih part (Nat.le_of_succ_le_succ more)) task.plan

theorem Task.rises (task : Task) : Action.Rises task.run := fun _ _ => task.run_below

theorem Plan.rises {α : Type} (plan : Plan α) : Action.Rises plan.run :=
  fun _ _ more => plan.run_below fun task => task.run_below more

/-! With enough steps -/

/-- What a task comes to in the end; it is cut off if it never ends. -/
noncomputable def Task.eventual (task : Task) : Evaluation task.Result := Action.eventually task.run

noncomputable def Plan.eventual {α : Type} : Plan α → Evaluation α
  | done value => pure value
  | effect change next => change.run >>= fun result => (next result).eventual
  | task role part next => role.around part.eventual >>= fun result => (next result).eventual

theorem Plan.eventually_run {α : Type} (plan : Plan α) :
    Action.eventually plan.run = plan.eventual := by
  induction plan with
  | done value => exact Action.eventually_const (pure value)
  | effect change next ih =>
    have split := Action.eventually_bind (Action.rises_const change.run) fun result =>
      (next result).rises
    rw [Action.eventually_const] at split
    simp only [ih] at split
    exact split
  | task role part next ih =>
    have split := Action.eventually_bind (part.rises.around role.enter role.leave) fun result =>
      (next result).rises
    rw [Action.eventually_around role.enter role.leave part.rises] at split
    simp only [ih] at split
    exact split

theorem Task.eventual_eq_plan (task : Task) : task.eventual = task.plan.eventual := by
  rw [eventual, ← task.rises.eventually_succ, ← Plan.eventually_run]
  simp only [run_succ]

theorem Task.exists_eventual_eq (task : Task) (machine : Machine) :
    ∃ fuel, task.eventual machine = task.run fuel machine :=
  task.rises.exists_steps machine

theorem Plan.eventual_part {α : Type} (part : Task) (next : part.Result → Plan α) :
    (Plan.task .part part next).eventual =
      part.eventual >>= fun result => (next result).eventual := by
  rw [eventual, Role.around_part]

theorem Contract.Sound.eventual {contract : Contract} (sound : contract.Sound) (role : Role)
    (task : Task) {machine : Machine} (fits : contract.fits role task)
    (holds : contract.holds machine) :
    (task.eventual machine).Meets
      (fun result after => contract.fulfils task result ∧ contract.holds after)
      fun _ after => contract.holds after := by
  obtain ⟨fuel, same⟩ := task.exists_eventual_eq machine
  rw [same]
  exact sound.run fuel role task machine fits holds

theorem Simulation.Sound.eventual {L : Likeness} {S : Simulation L} (sound : S.Sound)
    {world : L.World} {first second : Task} {a b : Machine} (alike : L.Tasks world first second)
    (machines : S.machines world a b) :
    S.Pairs world (L.TaskResults · first second) (first.eventual a) (second.eventual b) :=
  Action.pairs_eventually first.rises second.rises fun fuel => sound.run fuel alike machines

/-! Blocks, loops and statements -/

namespace Task

theorem eventual_block (span : Span) (nodes : List Node) (scope : ScopeId) :
    (node (.block span nodes) scope).eventual =
      Evaluation.openScope scope >>= fun inner => (statements nodes inner).eventual := by
  rw [eventual_eq_plan, plan, Node.plan, Plan.eventual]
  refine bind_congr fun inner => ?_
  rw [Plan.eventual_part]
  exact bind_pure _

theorem eventual_loop (span : Span) (condition body : Node) (increment : Option Node)
    (scope : ScopeId) :
    (node (.loop span condition body increment) scope).eventual =
      (rounds condition body increment scope).eventual := by
  rw [eventual_eq_plan, plan, Node.plan, Plan.eventual_part]
  exact bind_pure _

theorem eventual_program (span : Span) (nodes : List Node) (scope : ScopeId) :
    (node (.program span nodes) scope).eventual = (statements nodes scope).eventual := by
  rw [eventual_eq_plan, plan, Node.plan, Plan.eventual_part]
  exact bind_pure _

theorem eventual_statements_cons (first : Node) (rest : List Node) (scope : ScopeId) :
    (statements (first :: rest) scope).eventual =
      (node first scope).eventual >>= fun completion =>
        match completion.signal with
        | .normal => (statements rest scope).eventual
        | signal => Evaluation.leaving signal := by
  rw [eventual_eq_plan, plan, Plan.eventual_part]
  refine bind_congr fun completion => ?_
  cases completion.signal with
  | normal =>
    rw [Plan.eventual_part]
    exact bind_pure _
  | _ => rfl

theorem eventual_statements_nil (scope : ScopeId) :
    (statements [] scope).eventual = Evaluation.normally .nil := by
  rw [eventual_eq_plan]
  rfl

end Task

/-! Loops lap by lap -/

namespace Evaluation

/-- What follows a round that control has left in some way: the end of the loop, or the increment
and whatever comes `again`. -/
def turn (step : Evaluation Unit) (again : Evaluation Completion) : Signal → Evaluation Completion
  | .broken => normally .nil
  | .returned value => leaving (.returned value)
  | _ => step >>= fun _ => again

/-- A loop up to where it comes `again`. -/
def lap (test : Evaluation Value) (round : Evaluation Completion) (step : Evaluation Unit)
    (again : Evaluation Completion) : Evaluation Completion :=
  test >>= fun test =>
    if test.isTruthy then round >>= fun completion => turn step again completion.signal
    else normally .nil

/-- A loop that is cut off where it would begin more than a number of laps. -/
def laps (test : Evaluation Value) (round : Evaluation Completion) (step : Evaluation Unit) :
    Nat → Evaluation Completion
  | 0 => Action.cutOff
  | count + 1 => lap test round step (laps test round step count)

section

variable {test test' : Evaluation Value} {round round' : Evaluation Completion}
  {step step' : Evaluation Unit} {again again' : Evaluation Completion}

theorem turn_below (steps : Action.Below step step') (goesOn : Action.Below again again')
    (signal : Signal) : Action.Below (turn step again signal) (turn step' again' signal) := by
  cases signal with
  | broken | returned => exact .refl _
  | normal | continued => exact steps.bind fun _ => goesOn

theorem lap_below (tests : Action.Below test test') (rounds : Action.Below round round')
    (steps : Action.Below step step') (goesOn : Action.Below again again') :
    Action.Below (lap test round step again) (lap test' round' step' again') := by
  refine tests.bind fun value => ?_
  split
  · exact rounds.bind fun completion => turn_below steps goesOn completion.signal
  · exact .refl _

theorem rises_laps : Action.Rises (laps test round step) := by
  intro low high more
  induction low generalizing high with
  | zero => exact Action.cutOff_below _
  | succ low ih =>
    obtain ⟨high, rfl⟩ : ∃ least, high = least + 1 := ⟨high - 1, by omega⟩
    exact lap_below (.refl test) (.refl round) (.refl step) (ih high (Nat.le_of_succ_le_succ more))

end

section

variable {tests : Nat → Evaluation Value} {rounds : Nat → Evaluation Completion}
  {steps : Nat → Evaluation Unit} {goesOn : Nat → Evaluation Completion}

theorem eventually_turn (risesSteps : Action.Rises steps) (rises : Action.Rises goesOn)
    (signal : Signal) :
    (Action.eventually fun fuel => turn (steps fuel) (goesOn fuel) signal) =
      turn (Action.eventually steps) (Action.eventually goesOn) signal := by
  cases signal with
  | broken | returned => exact Action.eventually_const _
  | normal | continued => exact Action.eventually_bind risesSteps fun _ => rises

theorem eventually_lap (risesTests : Action.Rises tests) (risesRounds : Action.Rises rounds)
    (risesSteps : Action.Rises steps) (rises : Action.Rises goesOn) :
    (Action.eventually fun fuel => lap (tests fuel) (rounds fuel) (steps fuel) (goesOn fuel)) =
      lap (Action.eventually tests) (Action.eventually rounds) (Action.eventually steps)
        (Action.eventually goesOn) := by
  have risesTurn (completion : Completion) :
      Action.Rises fun fuel => turn (steps fuel) (goesOn fuel) completion.signal :=
    fun low high more => turn_below (risesSteps low high more) (rises low high more) _
  have inner (truthy : Bool) : (Action.eventually fun fuel =>
      if truthy then rounds fuel >>= fun completion =>
        turn (steps fuel) (goesOn fuel) completion.signal
      else normally .nil) =
      if truthy then Action.eventually rounds >>= fun completion =>
        turn (Action.eventually steps) (Action.eventually goesOn) completion.signal
      else normally .nil := by
    cases truthy with
    | false => exact Action.eventually_const _
    | true =>
      simp only [if_true]
      rw [Action.eventually_bind risesRounds risesTurn]
      exact bind_congr fun completion => eventually_turn risesSteps rises completion.signal
  unfold lap
  rw [Action.eventually_bind risesTests]
  · exact bind_congr fun value => inner value.isTruthy
  · intro value low high more
    split
    · exact (risesRounds low high more).bind fun completion => risesTurn completion low high more
    · exact .refl _

/-- What makes a lap with each step, and is cut off without steps, comes to what its laps do. -/
theorem eventually_eq_laps {family : Nat → Evaluation Completion}
    (risesTests : Action.Rises tests) (risesRounds : Action.Rises rounds)
    (risesSteps : Action.Rises steps) (rises : Action.Rises family)
    (start : family 0 = Action.cutOff)
    (next : ∀ fuel, family (fuel + 1) = lap (tests fuel) (rounds fuel) (steps fuel) (family fuel)) :
    Action.eventually family = Action.eventually (laps (Action.eventually tests)
      (Action.eventually rounds) (Action.eventually steps)) := by
  have again := eventually_lap risesTests risesRounds risesSteps rises
  simp only [← next, rises.eventually_succ] at again
  -- each family tells no more than the other one comes to, by induction on its own steps
  have low (fuel : Nat) : Action.Below (family fuel) (laps (Action.eventually tests)
      (Action.eventually rounds) (Action.eventually steps) fuel) := by
    induction fuel with
    | zero =>
      rw [start]
      exact Action.cutOff_below _
    | succ fuel ih =>
      rw [next]
      exact lap_below (risesTests.below_eventually fuel) (risesRounds.below_eventually fuel)
        (risesSteps.below_eventually fuel) ih
  have high (count : Nat) : Action.Below (laps (Action.eventually tests)
      (Action.eventually rounds) (Action.eventually steps) count) (Action.eventually family) := by
    induction count with
    | zero => exact Action.cutOff_below _
    | succ count ih =>
      rw [again]
      exact lap_below (.refl _) (.refl _) (.refl _) ih
  funext machine
  apply Outcome.Below.antisymm
  · exact rises.eventually_below
      (fun fuel machine => (low fuel machine).trans (rises_laps.below_eventually fuel machine)) machine
  · exact rises_laps.eventually_below high machine

end

end Evaluation

def Evaluation.runStep (fuel : Nat) (increment : Option Node) (scope : ScopeId) : Evaluation Unit :=
  match increment with
  | none => pure ()
  | some step => valueOf (evaluate fuel step scope) >>= fun _ => pure ()

theorem Evaluation.runLoop_succ (fuel : Nat) (condition body : Node) (increment : Option Node)
    (scope : ScopeId) :
    runLoop (fuel + 1) condition body increment scope =
      lap (valueOf (evaluate fuel condition scope)) (evaluate fuel body scope)
        (runStep fuel increment scope) (runLoop fuel condition body increment scope) := by
  rw [runLoop.eq_def]
  refine bind_congr fun test => ?_
  split
  · refine bind_congr fun completion => ?_
    cases completion.signal with
    | broken | returned => rfl
    | normal | continued =>
      cases increment with
      | none => rfl
      | some step => simp only [turn, runStep, bind_assoc, pure_bind]
  · rfl

namespace Task

noncomputable def valueOf (tree : Node) (scope : ScopeId) : Evaluation Value :=
  Evaluation.valueOf (node tree scope).eventual

noncomputable def stepOf (increment : Option Node) (scope : ScopeId) : Evaluation Unit :=
  match increment with
  | none => pure ()
  | some step => valueOf step scope >>= fun _ => pure ()

section

variable (tree : Node) (increment : Option Node) (scope : ScopeId)

theorem rises_valueOf :
    Action.Rises fun fuel => Evaluation.valueOf (Evaluation.evaluate fuel tree scope) :=
  (node tree scope).rises.bind fun completion => Action.rises_const (pure completion.value)

theorem eventually_valueOf :
    (Action.eventually fun fuel => Evaluation.valueOf (Evaluation.evaluate fuel tree scope)) =
      valueOf tree scope := by
  have split := Action.eventually_bind (node tree scope).rises fun completion =>
    Action.rises_const (pure completion.value)
  simp only [Action.eventually_const] at split
  exact split

theorem rises_runStep : Action.Rises fun fuel => Evaluation.runStep fuel increment scope := by
  cases increment with
  | none => exact Action.rises_const (pure ())
  | some step => exact (rises_valueOf step scope).bind fun _ => Action.rises_const (pure ())

theorem eventually_runStep :
    (Action.eventually fun fuel => Evaluation.runStep fuel increment scope) =
      stepOf increment scope := by
  cases increment with
  | none => exact Action.eventually_const (pure ())
  | some step =>
    have split := Action.eventually_bind (rises_valueOf step scope) fun _ =>
      Action.rises_const (pure ())
    simp only [Action.eventually_const, eventually_valueOf] at split
    exact split

theorem eventual_rounds (condition body : Node) :
    (rounds condition body increment scope).eventual =
      Action.eventually (Evaluation.laps (valueOf condition scope) (node body scope).eventual
        (stepOf increment scope)) := by
  rw [← eventually_valueOf, ← eventually_runStep]
  apply Evaluation.eventually_eq_laps (rises_valueOf condition scope) (node body scope).rises
    (rises_runStep increment scope) (rounds condition body increment scope).rises
  · funext machine
    exact run_zero _ machine
  · exact fun fuel => Evaluation.runLoop_succ fuel condition body increment scope

end

end Task

end Scriptlet
