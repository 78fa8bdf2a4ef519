import Scriptlet.Proofs.Machine.Plain
import Scriptlet.Proofs.Machine.Request

/-! The count of calls under way. -/

set_option autoImplicit false

namespace Scriptlet

/-- Machines that allow as many calls, have as many under way, and have the same host functions. -/
structure Machine.SameCalls (before after : Machine) : Prop where
  depth : after.depth = before.depth
  limit : after.limit = before.limit
  behaviours : after.behaviours = before.behaviours

namespace Machine.SameCalls

theorem refl (machine : Machine) : SameCalls machine machine := ⟨rfl, rfl, rfl⟩

theorem trans {before middle after : Machine} (first : SameCalls before middle)
    (second : SameCalls middle after) : SameCalls before after :=
  ⟨second.depth.trans first.depth, second.limit.trans first.limit,
    second.behaviours.trans first.behaviours⟩

theorem effect (change : Effect) (machine : Machine) :
    (change.run machine).Meets (fun _ => SameCalls machine) fun _ => SameCalls machine := by
  refine (change.meets_run machine).mono (fun result after done => ?_) fun error after fails => ?_
  · cases done <;> exact ⟨rfl, rfl, rfl⟩
  · cases fails <;> exact ⟨rfl, rfl, rfl⟩

theorem around (role : Role) {machine after : Machine}
    (inside : SameCalls (role.enter machine) after) : SameCalls machine (role.leave after) := by
  cases role with
  -- what was counted on the way in is taken off on the way out
  | body => exact ⟨by rw [Role.leave, inside.depth]; rfl, inside.limit, inside.behaviours⟩
  | part => exact inside
  | operand => exact inside

theorem kept : Kept SameCalls where
  refl := refl
  trans _ _ _ := trans
  effect := effect
  around role _ _ := around role

end Machine.SameCalls

/-! However an evaluation ends, as many calls are under way as before -/

theorem Request.sameCalls (fuel : Nat) (request : Request) (machine : Machine) :
    (request.perform fuel machine).Meets (fun _ => machine.SameCalls)
      fun _ => machine.SameCalls :=
  Machine.SameCalls.kept.request fuel request machine

/-! Functions are called in nothing but calls of functions -/

def Plan.Only (effects : Effect → Prop) (tasks : Role → Task → Prop) {α : Type} (plan : Plan α) :
    Prop :=
  plan.Keeps .any effects tasks fun _ => True

namespace Plan.Only

variable {effects : Effect → Prop} {tasks : Role → Task → Prop} {α : Type} {plan : Plan α}
  {fuel : Nat} {machine there : Machine}

theorem of_calls (only : plan.Only effects tasks) {role : Role} {part : Task}
    (calls : plan.Calls fuel machine role part there) : tasks role part := by
  induction calls with
  | here => exact only.1
  | afterEffect _ _ ih => exact ih (only.2 _ trivial)
  | afterTask _ _ ih => exact ih (only.2 _ trivial)

theorem of_performs (only : plan.Only effects tasks) {change : Effect}
    (performs : plan.Performs fuel machine change there) : effects change := by
  induction performs with
  | here => exact only.1
  | afterEffect _ _ ih => exact ih (only.2 _ trivial)
  | afterTask _ _ ih => exact ih (only.2 _ trivial)

end Plan.Only

/-- The call on whose behalf an effect checks the depth. -/
def Effect.checked? : Effect → Option Span
  | checkDepth span => some span
  | _ => none

/-- A plan that neither checks the depth nor evaluates the body of a function. -/
def Plan.IsPlain {α : Type} (plan : Plan α) : Prop :=
  plan.Only (fun change => change.checked? = none) fun role _ => role ≠ .body

/-- Nothing but a call of a function of the program checks the depth or evaluates a body. -/
theorem Task.isPlain_or (task : Task) :
    task.plan.IsPlain ∨
      ∃ closure arguments span, task = .call (.closure closure) arguments span := by
  by_cases isCall : ∃ closure arguments span, task = .call (.closure closure) arguments span
  · exact .inr isCall
  · refine .inl (task.keeps_plan.imp (fun change does => ?_) (fun role part needs => ?_)
      fun _ _ => trivial)
    · cases does with
      | depth => exact absurd ⟨_, _, _, rfl⟩ isCall
      | _ => rfl
    · cases needs with
      | body => exact absurd ⟨_, _, _, rfl⟩ isCall
      | _ => simp

theorem Task.only_closure (closure : Closure) (arguments : List Value) (span : Span) :
    (Task.call (.closure closure) arguments span).plan.Only
      (fun change => ∀ place ∈ change.checked?, place = span) fun _ _ => True := by
  refine (Task.keeps_plan _).imp (fun change does => ?_) (fun _ _ _ => trivial) fun _ _ => trivial
  cases does <;> simp [Effect.checked?]

theorem Plan.Calls.of_bindEach {α : Type} {fuel : Nat} {scope : ScopeId} {next : Plan α}
    {names : List String} {values : List Value} {machine there : Machine} {role : Role}
    {part : Task} (calls : (bindEach scope next names values).Calls fuel machine role part there) :
    ∃ reached, next.Calls fuel reached role part there := by
  induction names generalizing values machine with
  | nil => exact ⟨machine, calls⟩
  | cons name names ih =>
    cases values with
    | nil => exact ⟨machine, calls⟩
    | cons value values =>
      cases calls with
      | afterEffect _ calls => exact ih calls

theorem Plan.Calls.of_closure {fuel : Nat} {closure : Closure} {arguments : List Value}
    {span : Span} {machine there : Machine} {role : Role} {part : Task}
    (calls : (Task.call (.closure closure) arguments span).plan.Calls fuel machine role part
      there) :
    machine.depth < machine.limit ∧ ∃ scope, part = .statements closure.body scope := by
  rw [Task.plan] at calls
  cases calls with
  | @afterEffect _ _ _ _ before _ _ _ arity calls =>
    have same := Machine.SameCalls.kept.effect_done arity
    cases calls with
    | afterEffect allowed calls =>
      -- the check comes before the body, and has let the call pass
      have less : before.depth < before.limit := by
        cases Effect.done_of_run allowed with
        | checkDepth less => exact less
      rw [same.depth, same.limit] at less
      refine ⟨less, ?_⟩
      cases calls with
      | afterEffect _ calls =>
        obtain ⟨reached, calls⟩ := calls.of_bindEach
        cases calls with
        | here => exact ⟨_, rfl⟩
        | afterTask _ calls =>
          dsimp only at calls
          split at calls <;> cases calls

/-! How deep evaluations are -/

namespace Role

theorem depth_enter (role : Role) (machine : Machine) :
    (role.enter machine).depth = machine.depth + role.callCount := by
  cases role <;> rfl

theorem limit_enter (role : Role) (machine : Machine) :
    (role.enter machine).limit = machine.limit := by
  cases role <;> rfl

theorem behaviours_enter (role : Role) (machine : Machine) :
    (role.enter machine).behaviours = machine.behaviours := by
  cases role <;> rfl

end Role

namespace Config

theorem Calls.sameCalls {config next : Config} (calls : config.Calls next) :
    ∃ before, config.machine.SameCalls before ∧ next.machine = next.role.enter before := by
  cases calls with
  | intro calls => exact Machine.SameCalls.kept.calls calls

theorem Performs.sameCalls {config : Config} {change : Effect} {there : Machine}
    (performs : config.Performs change there) : config.machine.SameCalls there := by
  cases performs with
  | intro performs => exact Machine.SameCalls.kept.performs performs

/-- The count of a machine is the number of functions whose bodies are around. -/
theorem Within.depth_eq {start config : Config} {active : Nat}
    (within : Within start active config) :
    config.machine.depth = start.machine.depth + active ∧
      config.machine.limit = start.machine.limit ∧
      config.machine.behaviours = start.machine.behaviours := by
  induction within with
  | start => exact ⟨rfl, rfl, rfl⟩
  | step _ calls ih =>
    obtain ⟨before, same, entered⟩ := calls.sameCalls
    obtain ⟨depth, limit, behaviours⟩ := ih
    rw [entered, Role.depth_enter, Role.limit_enter, Role.behaviours_enter, same.depth, depth,
      same.limit, same.behaviours, Nat.add_assoc]
    exact ⟨rfl, limit, behaviours⟩

theorem Calls.of_body {config next : Config} (calls : config.Calls next)
    (isBody : next.role = .body) :
    ∃ closure arguments span scope, config.task = .call (.closure closure) arguments span ∧
      next.task = .statements closure.body scope ∧ config.machine.depth < config.machine.limit := by
  cases calls with
  | @intro _ _ _ task _ _ _ calls =>
    cases isBody
    rcases task.isPlain_or with plain | ⟨closure, arguments, span, rfl⟩
    · exact absurd rfl (plain.of_calls calls)
    · obtain ⟨less, scope, same⟩ := calls.of_closure
      exact ⟨closure, arguments, span, scope, rfl, same, less⟩

theorem Within.depth_le {start config : Config} {active : Nat} (within : Within start active config)
    (bounded : start.machine.depth ≤ start.machine.limit) :
    config.machine.depth ≤ config.machine.limit := by
  induction within with
  | start => exact bounded
  | @step _ config next _ calls ih =>
    obtain ⟨before, same, entered⟩ := calls.sameCalls
    rw [entered, Role.depth_enter, Role.limit_enter, same.depth, same.limit]
    cases role : next.role with
    | body =>
      obtain ⟨_, _, _, _, _, _, less⟩ := calls.of_body role
      exact less
    | part => exact ih
    | operand => exact ih

theorem Within.depth_of_body {start config : Config} {active : Nat}
    (within : Within start active config) (outer : start.role ≠ .body)
    (isBody : config.role = .body) :
    1 ≤ config.machine.depth ∧ config.machine.depth ≤ start.machine.limit := by
  cases within with
  | start => exact absurd isBody outer
  | @step _ caller _ within calls =>
    obtain ⟨before, same, entered⟩ := calls.sameCalls
    obtain ⟨_, _, _, _, _, _, less⟩ := calls.of_body isBody
    rw [within.depth_eq.2.1] at less
    rw [entered, Role.depth_enter, isBody, same.depth]
    exact ⟨Nat.le_add_left _ _, less⟩

theorem Performs.of_checkDepth {config : Config} {span : Span} {there : Machine}
    (performs : config.Performs (.checkDepth span) there) :
    ∃ closure arguments, config.task = .call (.closure closure) arguments span := by
  cases performs with
  | @intro _ _ task _ _ _ performs =>
    rcases task.isPlain_or with plain | ⟨closure, arguments, place, rfl⟩
    · have unchecked : Effect.checked? (.checkDepth span) = none := plain.of_performs performs
      cases unchecked
    · have same := (Task.only_closure closure arguments place).of_performs performs span rfl
      exact ⟨closure, arguments, by rw [same]⟩

end Config

/-! Where overflows come from -/

def Behaviour.ReportsOverflow (behaviour : Behaviour) : Prop :=
  ∃ arguments span host limit place after,
    behaviour arguments span host = .failed (.stackOverflow limit place) after

theorem Behaviour.IsPlain.not_reportsOverflow {behaviour : Behaviour} (plain : behaviour.IsPlain) :
    ¬behaviour.ReportsOverflow := by
  rintro ⟨arguments, span, host, limit, place, after, failed⟩
  have meets := plain arguments span host
  rw [failed] at meets
  cases meets

theorem Effect.Fails.of_stackOverflow {change : Effect} {machine after : Machine} {limit : Nat}
    {span : Span} (fails : change.Fails machine (.stackOverflow limit span) after) :
    (change = .checkDepth span ∧ limit = machine.limit ∧ machine.limit ≤ machine.depth) ∨
      ∃ behaviour ∈ machine.behaviours, Behaviour.ReportsOverflow behaviour := by
  cases fails with
  -- operators have errors of their own, none of them an overflow
  | applyUnary failed => cases UnaryOp.isPlain_of_failed failed
  | applyBinary failed => cases BinaryOp.isPlain_of_failed failed
  | checkDepth full => exact .inl ⟨rfl, rfl, full⟩
  | @callNative _ arguments place _ behaviour _ _ known outcome =>
    refine .inr ⟨behaviour, Array.mem_of_getElem? known, ?_⟩
    exact ⟨arguments, place, machine.host, limit, span, _, outcome⟩

/-- An overflow is that of a call of a function which is made with as many calls around it as the
machine allows; or else a host function has reported one as its own. -/
theorem Task.stackOverflow_cases {fuel : Nat} {task : Task} {machine after : Machine} {limit : Nat}
    {span : Span} (failed : task.run fuel machine = .failed (.stackOverflow limit span) after)
    (outside : machine.depth = 0) :
    (limit = machine.limit ∧ ∃ config closure arguments,
      Config.Within ⟨fuel, .part, task, machine⟩ machine.limit config ∧
      config.task = .call (.closure closure) arguments span) ∨
    ∃ behaviour ∈ machine.behaviours, behaviour.ReportsOverflow := by
  obtain ⟨active, config, change, there, reached, within, performs, own⟩ :=
    Task.failed_from_effect failed .part
  obtain ⟨depth, limitSame, behaviours⟩ := within.depth_eq
  have same := performs.sameCalls
  rcases (Effect.fails_of_run own).of_stackOverflow with
    ⟨rfl, rfl, full⟩ | ⟨behaviour, known, reports⟩
  · obtain ⟨closure, arguments, called⟩ := performs.of_checkDepth
    have bounded : machine.depth ≤ machine.limit := by
      rw [outside]
      exact Nat.zero_le _
    have allowed := within.depth_le bounded
    rw [same.limit, same.depth] at full
    rw [same.limit]
    dsimp only at depth limitSame
    -- no more than the limit are under way, and the check has failed, so as many are
    have allActive : active = machine.limit := by omega
    rw [allActive] at within
    exact .inl ⟨limitSame, config, closure, arguments, within, called⟩
  · rw [same.behaviours, behaviours] at known
    exact .inr ⟨behaviour, known, reports⟩

/-! Requests and sessions -/

/-- What a host and its machine do one after the other. The host makes a machine, registers functions
of its own that are `allowed`, changes scopes and its sink and clock as it likes, and asks for
evaluations, whether they succeed or fail. -/
inductive Machine.Session (allowed : Behaviour → Prop) (limit : Nat) : Machine → Prop where
  | start (sink : Sink) (clock : Clock) : Session allowed limit (start limit sink clock)
  | register {machine : Machine} (name : String) (arity : Arity) {behaviour : Behaviour} :
    Session allowed limit machine → allowed behaviour →
      Session allowed limit (machine.register name arity behaviour)
  | scopes {machine : Machine} (store : Store) :
    Session allowed limit machine → Session allowed limit { machine with store := store }
  | host {machine : Machine} (host : Host) :
    Session allowed limit machine → Session allowed limit { machine with host := host }
  | done {machine after : Machine} (fuel : Nat) (request : Request) :
    Session allowed limit machine → request.perform fuel machine = .done () after →
      Session allowed limit after
  | failed {machine after : Machine} (fuel : Nat) (request : Request) {failure : Failure} :
    Session allowed limit machine → request.perform fuel machine = .failed failure after →
      Session allowed limit after

/-- Between what a host does, no call is under way, whatever has failed before. -/
structure Machine.AtRest (allowed : Behaviour → Prop) (limit : Nat) (machine : Machine) : Prop where
  depth : machine.depth = 0
  limit : machine.limit = limit
  behaviours : ∀ behaviour ∈ machine.behaviours, allowed behaviour ∨ behaviour.IsPlain

theorem Machine.AtRest.register {allowed : Behaviour → Prop} {limit : Nat} {machine : Machine}
    (rest : machine.AtRest allowed limit) (name : String) (arity : Arity) {behaviour : Behaviour}
    (known : allowed behaviour ∨ behaviour.IsPlain) :
    (machine.register name arity behaviour).AtRest allowed limit := by
  refine ⟨rest.depth, rest.limit, fun other member => ?_⟩
  rcases Array.mem_push.mp member with old | rfl
  · exact rest.behaviours other old
  · exact known

theorem Machine.AtRest.sameCalls {allowed : Behaviour → Prop} {limit : Nat}
    {machine after : Machine} (rest : machine.AtRest allowed limit)
    (same : machine.SameCalls after) : after.AtRest allowed limit :=
  ⟨same.depth.trans rest.depth, same.limit.trans rest.limit, by
    rw [same.behaviours]
    exact rest.behaviours⟩

theorem Machine.Session.atRest {allowed : Behaviour → Prop} {limit : Nat} {machine : Machine}
    (session : Session allowed limit machine) : machine.AtRest allowed limit := by
  induction session with
  | start sink clock =>
    exact start_induction ⟨rfl, rfl, by simp⟩ fun _ name arity _ rest plain =>
      rest.register name arity (.inr plain)
  | register name arity _ known rest => exact rest.register name arity (.inl known)
  | scopes store _ rest => exact ⟨rest.depth, rest.limit, rest.behaviours⟩
  | host host _ rest => exact ⟨rest.depth, rest.limit, rest.behaviours⟩
  | @done machine _ fuel request _ done rest =>
    have meets := request.sameCalls fuel machine
    rw [done] at meets
    exact rest.sameCalls meets
  | @failed machine _ fuel request _ _ failed rest =>
    have meets := request.sameCalls fuel machine
    rw [failed] at meets
    exact rest.sameCalls meets

theorem Request.Begins.sameCalls {fuel : Nat} {request : Request} {machine there : Machine}
    {task : Task} (begins : Begins fuel request machine task there) : machine.SameCalls there :=
  Machine.SameCalls.kept.begins begins

/-- Calls are counted. However a request ends, the count is what it was, so none are under way
between requests; the body of a function is evaluated at a depth between one and the limit; and an
overflow is reported by a call of a function, and only when as many as the limit are under way,
unless a function of the host has reported one of its own. Calls of host functions do not count. -/
theorem Request.calls_are_counted (fuel : Nat) (request : Request) (machine : Machine) :
    (request.perform fuel machine).Meets (fun _ after => after.depth = machine.depth)
      (fun _ after => after.depth = machine.depth) ∧
    (∀ active config, request.Reaches fuel machine active config → config.role = .body →
      1 ≤ config.machine.depth ∧ config.machine.depth ≤ machine.limit) ∧
    ∀ allowed limit, Machine.Session allowed limit machine →
      machine.depth = 0 ∧ machine.limit = limit ∧
      ∀ reported span after,
        request.perform fuel machine = .failed (.runtime (.stackOverflow reported span)) after →
        (reported = limit ∧ ∃ config closure arguments,
          request.Reaches fuel machine limit config ∧
          config.task = .call (.closure closure) arguments span) ∨
        ∃ behaviour, allowed behaviour ∧ behaviour.ReportsOverflow := by
  refine ⟨?_, ?_, fun allowed limit session => ?_⟩
  · exact (request.sameCalls fuel machine).mono (fun _ _ same => same.depth)
      fun _ _ same => same.depth
  · rintro active config ⟨task, there, begins, within⟩ isBody
    rw [← begins.sameCalls.limit]
    exact within.depth_of_body (by simp) isBody
  · have rest := session.atRest
    refine ⟨rest.depth, rest.limit, fun reported span after failed => ?_⟩
    -- the error is that of a task begun with no call under way, so all calls around it are counted
    obtain ⟨task, there, reached, begins, failedThere⟩ := failed_cases failed
    have same := begins.sameCalls
    rcases Task.stackOverflow_cases failedThere (same.depth.trans rest.depth) with
      ⟨limitSame, config, closure, arguments, within, called⟩ | ⟨behaviour, known, reports⟩
    · rw [same.limit, rest.limit] at limitSame within
      exact .inl ⟨limitSame, config, closure, arguments, ⟨task, there, begins, within⟩, called⟩
    · rw [same.behaviours] at known
      rcases rest.behaviours behaviour known with permitted | plain
      · exact .inr ⟨behaviour, permitted, reports⟩
      · exact absurd reports plain.not_reportsOverflow

end Scriptlet
