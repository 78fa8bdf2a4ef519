import Scriptlet.Proofs.Machine.CallTree
import Scriptlet.Proofs.Machine.Outline

/-! What every effect keeps, every evaluation keeps. -/

set_option autoImplicit false

namespace Scriptlet

/-- A relation between the machines before and after, kept by effects and by counting calls. -/
structure Kept (R : Machine → Machine → Prop) : Prop where
  refl : ∀ machine, R machine machine
  trans : ∀ before middle after, R before middle → R middle after → R before after
  effect : ∀ (change : Effect) (machine : Machine),
    (change.run machine).Meets (fun _ => R machine) fun _ => R machine
  around : ∀ (role : Role) (machine after : Machine),
    R (role.enter machine) after → R machine (role.leave after)

namespace Kept

variable {R : Machine → Machine → Prop}

theorem plan {fuel : Nat} (kept : Kept R)
    (tasks : ∀ (task : Task) (machine : Machine),
      (task.run fuel machine).Meets (fun _ => R machine) fun _ => R machine)
    {α : Type} (plan : Plan α) (machine : Machine) :
    (plan.run fuel machine).Meets (fun _ => R machine) fun _ => R machine := by
  -- on the plan: each of its parts keeps the relation, which is transitive
  induction plan generalizing machine with
  | done value => exact kept.refl machine
  | effect change next ih =>
    refine Action.meets_bind (kept.effect change machine) fun result reached before => ?_
    exact (ih result reached).mono (fun _ after => kept.trans _ _ after before)
      fun _ after => kept.trans _ _ after before
  | task role part next ih =>
    have inside : (role.around (part.run fuel) machine).Meets (fun _ => R machine)
        fun _ => R machine := by
      refine Role.meets_around ((tasks part (role.enter machine)).mono ?_ ?_) <;>
        exact fun _ after => kept.around role machine after
    refine Action.meets_bind inside fun result reached before => ?_
    exact (ih result reached).mono (fun _ after => kept.trans _ _ after before)
      fun _ after => kept.trans _ _ after before

theorem run (kept : Kept R) (fuel : Nat) (task : Task) (machine : Machine) :
    (task.run fuel machine).Meets (fun _ => R machine) fun _ => R machine := by
  induction fuel generalizing task machine with
  | zero =>
    rw [Task.run_zero]
    trivial
  | succ fuel ih =>
    rw [Task.run_succ]
    exact kept.plan ih task.plan machine

theorem around_run (kept : Kept R) (role : Role) (task : Task) {fuel : Nat}
    {machine after : Machine} {result : task.Result}
    (done : role.around (task.run fuel) machine = .done result after) : R machine after := by
  have meets : (role.around (task.run fuel) machine).Meets (fun _ => R machine)
      fun _ => R machine := by
    refine Role.meets_around ((kept.run fuel task (role.enter machine)).mono ?_ ?_) <;>
      exact fun _ after => kept.around role machine after
  rw [done] at meets
  exact meets

theorem effect_done (kept : Kept R) {change : Effect} {machine after : Machine}
    {result : change.Result} (done : change.run machine = .done result after) :
    R machine after := by
  have meets := kept.effect change machine
  rw [done] at meets
  exact meets

/-- Up to the moment when a plan comes to a task, and that is entered. -/
theorem calls (kept : Kept R) {fuel : Nat} {α : Type} {plan : Plan α} {machine there : Machine}
    {role : Role} {part : Task} (calls : plan.Calls fuel machine role part there) :
    ∃ before, R machine before ∧ there = role.enter before := by
  induction calls with
  | here => exact ⟨_, kept.refl _, rfl⟩
  | afterEffect done _ ih =>
    obtain ⟨before, later, same⟩ := ih
    exact ⟨before, kept.trans _ _ _ (kept.effect_done done) later, same⟩
  | afterTask done _ ih =>
    obtain ⟨before, later, same⟩ := ih
    exact ⟨before, kept.trans _ _ _ (kept.around_run _ _ done) later, same⟩

theorem performs (kept : Kept R) {fuel : Nat} {α : Type} {plan : Plan α}
    {machine there : Machine} {change : Effect}
    (performs : plan.Performs fuel machine change there) : R machine there := by
  induction performs with
  | here => exact kept.refl _
  | afterEffect done _ ih => exact kept.trans _ _ _ (kept.effect_done done) ih
  | afterTask done _ ih => exact kept.trans _ _ _ (kept.around_run _ _ done) ih

end Kept

/-! What holds on the way, given what tasks ask for and give back -/

/-- What holds of machines all the time, of the tasks that are evaluated, and of their results. -/
structure Contract where
  holds : Machine → Prop
  fits : Role → Task → Prop
  fulfils : (task : Task) → task.Result → Prop

/-- A plan that is followed from machines that hold asks for tasks that fit, and has a good value
if they give back what they should. -/
def Plan.Respects (contract : Contract) {α : Type} (good : α → Prop) : Plan α → Prop
  | .done value => good value
  | .effect change next =>
    ∀ machine, contract.holds machine → (change.run machine).Meets
      (fun result after => contract.holds after ∧ (next result).Respects contract good)
      fun _ after => contract.holds after
  | .task role part next =>
    contract.fits role part ∧
      ∀ result, contract.fulfils part result → (next result).Respects contract good

structure Contract.Sound (contract : Contract) : Prop where
  enter : ∀ (role : Role) (machine : Machine),
    contract.holds machine → contract.holds (role.enter machine)
  leave : ∀ (role : Role) (machine : Machine),
    contract.holds machine → contract.holds (role.leave machine)
  plan : ∀ (role : Role) (task : Task), contract.fits role task →
    task.plan.Respects contract (contract.fulfils task)

namespace Contract.Sound

variable {contract : Contract}

theorem meets_plan (sound : contract.Sound) {fuel : Nat}
    (tasks : ∀ (role : Role) (task : Task) (machine : Machine), contract.fits role task →
      contract.holds machine → (task.run fuel machine).Meets
        (fun result after => contract.fulfils task result ∧ contract.holds after)
        fun _ after => contract.holds after)
    {α : Type} {good : α → Prop} {plan : Plan α} (respects : plan.Respects contract good)
    {machine : Machine} (holds : contract.holds machine) :
    (plan.run fuel machine).Meets (fun value after => good value ∧ contract.holds after)
      fun _ after => contract.holds after := by
  -- on the plan: what each part gives back is what the rest of it asks for
  induction plan generalizing machine with
  | done value => exact ⟨respects, holds⟩
  | effect change next ih =>
    refine Action.meets_bind (respects machine holds) fun result reached meets => ?_
    obtain ⟨holdsReached, later⟩ := meets
    exact ih result later holdsReached
  | task role part next ih =>
    obtain ⟨fits, later⟩ := respects
    have inside : (role.around (part.run fuel) machine).Meets
        (fun result after => contract.fulfils part result ∧ contract.holds after)
        fun _ after => contract.holds after :=
      Role.meets_around ((tasks role part _ fits (sound.enter role machine holds)).mono
        (fun _ after meets => ⟨meets.1, sound.leave role after meets.2⟩)
        fun _ after holdsAfter => sound.leave role after holdsAfter)
    refine Action.meets_bind inside fun result reached meets => ?_
    exact ih result (later result meets.1) meets.2

theorem run (sound : contract.Sound) (fuel : Nat) (role : Role) (task : Task) (machine : Machine)
    (fits : contract.fits role task) (holds : contract.holds machine) :
    (task.run fuel machine).Meets
      (fun result after => contract.fulfils task result ∧ contract.holds after)
      fun _ after => contract.holds after := by
  -- tasks of a plan have one step less than the task whose plan it is
  induction fuel generalizing role task machine with
  | zero =>
    rw [Task.run_zero]
    trivial
  | succ fuel ih =>
    rw [Task.run_succ]
    exact sound.meets_plan ih (sound.plan role task fits) holds

theorem around_run (sound : contract.Sound) (fuel : Nat) (role : Role) (task : Task)
    {machine : Machine} (fits : contract.fits role task) (holds : contract.holds machine) :
    (role.around (task.run fuel) machine).Meets
      (fun result after => contract.fulfils task result ∧ contract.holds after)
      fun _ after => contract.holds after :=
  Role.meets_around ((sound.run fuel role task _ fits (sound.enter role machine holds)).mono
    (fun _ after meets => ⟨meets.1, sound.leave role after meets.2⟩)
    fun _ after holdsAfter => sound.leave role after holdsAfter)

theorem calls_plan (sound : contract.Sound) {fuel : Nat} {α : Type} {good : α → Prop}
    {plan : Plan α} {machine there : Machine} {role : Role} {part : Task}
    (calls : plan.Calls fuel machine role part there) (respects : plan.Respects contract good)
    (holds : contract.holds machine) : contract.fits role part ∧ contract.holds there := by
  induction calls with
  | here => exact ⟨respects.1, sound.enter _ _ holds⟩
  | afterEffect done _ ih =>
    have meets := respects _ holds
    rw [done] at meets
    exact ih meets.2 meets.1
  | @afterTask first task _ result machine reached _ _ _ done _ ih =>
    have meets := sound.around_run fuel first task respects.1 holds
    rw [done] at meets
    exact ih (respects.2 result meets.1) meets.2

theorem within (sound : contract.Sound) {start config : Config} {active : Nat}
    (within : Config.Within start active config) (fits : contract.fits start.role start.task)
    (holds : contract.holds start.machine) :
    contract.fits config.role config.task ∧ contract.holds config.machine := by
  -- each task is one that a plan asks for, and the plan is that of a task which fits
  induction within with
  | start => exact ⟨fits, holds⟩
  | step _ calls ih =>
    cases calls with
    | intro calls => exact sound.calls_plan calls (sound.plan _ _ ih.1) ih.2

end Contract.Sound

/-! The effects on the way -/

/-- A plan that respects a contract, all of whose effects are `allowed`, given what comes back from
those before. -/
def Plan.Follows (contract : Contract) (allowed : Effect → Prop) {α : Type} (good : α → Prop) :
    Plan α → Prop
  | .done value => good value
  | .effect change next =>
    allowed change ∧ ∀ machine, contract.holds machine → (change.run machine).Meets
      (fun result after =>
        contract.holds after ∧ (next result).Follows contract allowed good)
      fun _ after => contract.holds after
  | .task role part next =>
    contract.fits role part ∧
      ∀ result, contract.fulfils part result → (next result).Follows contract allowed good

section

variable {contract : Contract} {allowed : Effect → Prop}

theorem Plan.Follows.respects {α : Type} {good : α → Prop} {plan : Plan α}
    (follows : plan.Follows contract allowed good) : plan.Respects contract good := by
  induction plan with
  | done value => exact follows
  | effect change next ih =>
    intro machine holds
    exact (follows.2 machine holds).imp fun result _ meets => ⟨meets.1, ih result meets.2⟩
  | task role part next ih =>
    exact ⟨follows.1, fun result gives => ih result (follows.2 result gives)⟩

theorem Contract.Sound.performs_plan (sound : contract.Sound) {fuel : Nat} {α : Type}
    {good : α → Prop} {plan : Plan α} {machine there : Machine} {change : Effect}
    (performs : plan.Performs fuel machine change there)
    (follows : plan.Follows contract allowed good) (holds : contract.holds machine) :
    allowed change ∧ contract.holds there := by
  induction performs with
  | here => exact ⟨follows.1, holds⟩
  | afterEffect done _ ih =>
    have meets := follows.2 _ holds
    rw [done] at meets
    exact ih meets.2 meets.1
  | @afterTask first task _ result machine _ _ _ done _ ih =>
    have meets := sound.around_run fuel first task follows.1 holds
    rw [done] at meets
    exact ih (follows.2 result meets.1) meets.2

/-- An error of a task that fits is one of an effect that is allowed, in a machine that holds. -/
theorem Contract.Sound.failed_from_allowed (sound : contract.Sound)
    (follows : ∀ (role : Role) (task : Task), contract.fits role task →
      task.plan.Follows contract allowed (contract.fulfils task))
    {fuel : Nat} {role : Role} {task : Task} {machine after : Machine} {error : RuntimeError}
    (fits : contract.fits role task) (holds : contract.holds machine)
    (failed : task.run fuel machine = .failed error after) :
    ∃ change there reached, allowed change ∧ contract.holds there ∧
      change.run there = .failed error reached := by
  obtain ⟨active, config, change, there, reached, within, performs, own⟩ :=
    Task.failed_from_effect failed role
  obtain ⟨fitsThere, holdsThere⟩ := sound.within within fits holds
  cases performs with
  | intro performs =>
    obtain ⟨isAllowed, holdsLast⟩ :=
      sound.performs_plan performs (follows _ _ fitsThere) holdsThere
    exact ⟨change, there, reached, isAllowed, holdsLast, own⟩

theorem Contract.Sound.failed_plan_from_allowed (sound : contract.Sound)
    (follows : ∀ (role : Role) (task : Task), contract.fits role task →
      task.plan.Follows contract allowed (contract.fulfils task))
    {fuel : Nat} {α : Type} {good : α → Prop} {plan : Plan α} {machine after : Machine}
    {error : RuntimeError} (own : plan.Follows contract allowed good)
    (holds : contract.holds machine) (failed : plan.run fuel machine = .failed error after) :
    ∃ change there reached, allowed change ∧ contract.holds there ∧
      change.run there = .failed error reached := by
  rcases Plan.failed_cases failed with
    ⟨change, there, reached, performs, failedThere⟩ | ⟨role, part, there, reached, calls, inside⟩
  · obtain ⟨isAllowed, holdsThere⟩ := sound.performs_plan performs own holds
    exact ⟨change, there, reached, isAllowed, holdsThere, failedThere⟩
  · obtain ⟨fits, holdsThere⟩ := sound.calls_plan calls own.respects holds
    exact sound.failed_from_allowed follows fits holdsThere inside

theorem Plan.Keeps.follows {gives : (change : Effect) → change.Result → Prop}
    (effect : ∀ {change : Effect} {machine : Machine}, allowed change → contract.holds machine →
      (change.run machine).Meets (fun result after => gives change result ∧ contract.holds after)
        fun _ after => contract.holds after)
    {α : Type} {good : α → Prop} {plan : Plan α}
    (keeps : plan.Keeps ⟨gives, contract.fulfils⟩ allowed contract.fits good) :
    plan.Follows contract allowed good := by
  induction plan with
  | done value => exact keeps
  | effect change next ih =>
    obtain ⟨isAllowed, later⟩ := keeps
    refine ⟨isAllowed, fun machine holds => (effect isAllowed holds).imp ?_⟩
    exact fun result after meets => ⟨meets.2, ih result (later result meets.1)⟩
  | task role part next ih =>
    exact ⟨keeps.1, fun result gives => ih result (keeps.2 result gives)⟩

end

/-! Contracts that the rules for tasks keep -/

/-- Tasks that fit do what is allowed, have evaluated what fits, and come to what they should. Effects
that are allowed give back what is said of them. -/
structure Contract.Obeyed (contract : Contract) (gives : (change : Effect) → change.Result → Prop)
    (allowed : Effect → Prop) : Prop where
  enter : ∀ (role : Role) (machine : Machine),
    contract.holds machine → contract.holds (role.enter machine)
  leave : ∀ (role : Role) (machine : Machine),
    contract.holds machine → contract.holds (role.leave machine)
  effect : ∀ {change : Effect} {machine : Machine}, allowed change → contract.holds machine →
    (change.run machine).Meets (fun result after => gives change result ∧ contract.holds after)
      fun _ after => contract.holds after
  does : ∀ {role : Role} {task : Task} {change : Effect}, contract.fits role task →
    task.Does ⟨gives, contract.fulfils⟩ change → allowed change
  needs : ∀ {role inner : Role} {task part : Task}, contract.fits role task →
    task.Needs ⟨gives, contract.fulfils⟩ inner part → contract.fits inner part
  yields : ∀ {role : Role} {task : Task} {result : task.Result}, contract.fits role task →
    task.Yields ⟨gives, contract.fulfils⟩ result → contract.fulfils task result

namespace Contract.Obeyed

variable {contract : Contract} {gives : (change : Effect) → change.Result → Prop}
  {allowed : Effect → Prop}

theorem follows (obeyed : contract.Obeyed gives allowed) {role : Role} {task : Task}
    (fits : contract.fits role task) :
    task.plan.Follows contract allowed (contract.fulfils task) := by
  apply Plan.Keeps.follows obeyed.effect
  exact task.keeps_plan.imp (fun _ => obeyed.does fits) (fun _ _ => obeyed.needs fits)
    fun _ => obeyed.yields fits

theorem sound (obeyed : contract.Obeyed gives allowed) : contract.Sound where
  enter := obeyed.enter
  leave := obeyed.leave
  plan _ _ fits := (obeyed.follows fits).respects

end Contract.Obeyed

/-! What the trees alone tell of results, whatever the machine that they are evaluated in -/

/-- Nothing is asked of machines, and nothing of the tasks that are evaluated. -/
def Contract.ofResults (fulfils : (task : Task) → task.Result → Prop) : Contract where
  holds _ := True
  fits _ _ := True
  fulfils := fulfils

theorem Contract.ofResults_sound {fulfils : (task : Task) → task.Result → Prop}
    (yields : ∀ {task : Task} {result : task.Result},
      task.Yields ⟨fun _ _ => True, fulfils⟩ result → fulfils task result) :
    (Contract.ofResults fulfils).Sound := by
  have obeyed : (Contract.ofResults fulfils).Obeyed (fun _ _ => True) fun _ => True := {
    enter _ _ _ := trivial
    leave _ _ _ := trivial
    effect _ _ := (Effect.meets_run _ _).mono (fun _ _ _ => ⟨trivial, trivial⟩) fun _ _ _ => trivial
    does _ _ := trivial
    needs _ _ := trivial
    yields _ := yields }
  exact obeyed.sound

end Scriptlet
