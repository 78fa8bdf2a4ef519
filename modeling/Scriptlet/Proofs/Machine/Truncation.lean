import Scriptlet.Proofs.Machine.CallDepth
import Scriptlet.Proofs.Machine.Course

/-! A machine whose sink can be full beside one whose sink is never full. -/

set_option autoImplicit false

namespace Scriptlet

namespace Machine

/-- Functions of the host that do nothing else with the host than to write and to read the clock. -/
def HasCourses (machine : Machine) : Prop :=
  ∀ behaviour ∈ machine.behaviours, Behaviour.HasCourse behaviour

theorem HasCourses.register {machine : Machine} (courses : machine.HasCourses) (name : String)
    (arity : Arity) {behaviour : Behaviour} (own : behaviour.HasCourse) :
    (machine.register name arity behaviour).HasCourses := by
  intro other member
  rcases Array.mem_push.mp member with old | rfl
  · exact courses other old
  · exact own

theorem start_hasCourses (limit : Nat) (sink : Sink) (clock : Clock) :
    (start limit sink clock).HasCourses :=
  start_induction_on Builtin.hasCourse_all (fun _ member => by simp at member)
    fun _ name arity _ courses own => courses.register name arity own

def boundless (machine : Machine) : Machine := { machine with host := machine.host.boundless }

def output (machine : Machine) : List Char := machine.host.output

end Machine

abbrev Outcome.boundless {ε α : Type} (outcome : Outcome ε Machine α) : Outcome ε Machine α :=
  outcome.mapState Machine.boundless

/-- A function of the host does to the machine what it does to the host. -/
theorem Evaluation.callNative_eq {native : Native} {machine : Machine} {behaviour : Behaviour}
    (known : machine.behaviours[native.identity]? = some behaviour) (arguments : List Value)
    (span : Span) :
    callNative native arguments span machine =
      (behaviour arguments span machine.host).mapState fun host =>
        { machine with host := host } := by
  rw [callNative, known]
  dsimp only
  cases behaviour arguments span machine.host <;> rfl

/-! What is written stays written -/

/-- A machine, and one that it has come to by way of functions of the host that only write. -/
structure Machine.Extends (before after : Machine) : Prop where
  behaviours : after.behaviours = before.behaviours
  output : before.HasCourses → before.output <+: after.output

theorem Effect.extends_run (change : Effect) (machine : Machine) :
    (change.run machine).Meets (fun _ => machine.Extends) fun _ => machine.Extends := by
  have called {behaviour : Behaviour} {place : Nat}
      (known : machine.behaviours[place]? = some behaviour) (arguments : List Value) (span : Span)
      (courses : machine.HasCourses) :
      (behaviour arguments span machine.host).Extends Host.output machine.host.output := by
    obtain ⟨course, same⟩ := courses behaviour (Array.mem_of_getElem? known) arguments span
    rw [same]
    exact course.extends_run span machine.host
  refine (change.meets_run machine).mono (fun result after done => ?_) fun error after fails => ?_
  · cases done with
    | @callNative _ arguments span _ _ _ _ known outcome =>
      refine ⟨rfl, fun courses => ?_⟩
      have meets := called known arguments span courses
      rw [outcome] at meets
      exact meets
    | _ => exact ⟨rfl, fun _ => List.prefix_rfl⟩
  · cases fails with
    | @callNative _ arguments span _ _ _ _ known outcome =>
      refine ⟨rfl, fun courses => ?_⟩
      have meets := called known arguments span courses
      rw [outcome] at meets
      exact meets
    | _ => exact ⟨rfl, fun _ => List.prefix_rfl⟩

theorem Machine.extends_kept : Kept Machine.Extends where
  refl _ := ⟨rfl, fun _ => List.prefix_rfl⟩
  trans before middle after first second := by
    refine ⟨second.behaviours.trans first.behaviours, fun courses => ?_⟩
    have still : middle.HasCourses := by
      rw [HasCourses, first.behaviours]
      exact courses
    exact (first.output courses).trans (second.output still)
  effect := Effect.extends_run
  around role machine after inside := by
    cases role <;> exact ⟨inside.behaviours, inside.output⟩

theorem Machine.Extends.hasCourses {before after : Machine} (step : before.Extends after)
    (courses : before.HasCourses) : after.HasCourses := by
  rw [HasCourses, step.behaviours]
  exact courses

/-! Writes that are refused -/

/-- A function of the host is called and comes to a text that the sink refuses. -/
inductive Effect.IsRefused : Effect → Machine → String → Span → Prop where
  | callNative {native : Native} {arguments : List Value} {span : Span} {machine : Machine}
    {behaviour : Behaviour} {course : Course} {message : String} :
    machine.behaviours[native.identity]? = some behaviour →
      behaviour arguments span = course.run span → course.refusal? machine.host = some message →
        IsRefused (.callNative native arguments span) machine message span

def Config.Refuses (start : Config) (message : String) (span : Span) : Prop :=
  ∃ active config change there, Within start active config ∧ config.Performs change there ∧
    change.IsRefused there message span

def Request.Refuses (fuel : Nat) (request : Request) (machine : Machine) (message : String)
    (span : Span) : Prop :=
  ∃ task there, request.Begins fuel machine task there ∧
    Config.Refuses ⟨fuel, .part, task, there⟩ message span

inductive Plan.Refuses (fuel : Nat) {α : Type} (plan : Plan α) (machine : Machine)
    (message : String) (span : Span) : Prop where
  | own {change : Effect} {there : Machine} :
    plan.Performs fuel machine change there → change.IsRefused there message span →
      Refuses fuel plan machine message span
  | inside {role : Role} {part : Task} {there : Machine} :
    plan.Calls fuel machine role part there →
      Config.Refuses ⟨fuel, role, part, there⟩ message span →
      Refuses fuel plan machine message span

section

variable {fuel : Nat} {α : Type} {machine reached : Machine} {message : String} {span : Span}

theorem Plan.Refuses.afterEffect {change : Effect} {next : change.Result → Plan α}
    {result : change.Result} (done : change.run machine = .done result reached)
    (refuses : (next result).Refuses fuel reached message span) :
    (effect change next).Refuses fuel machine message span := by
  cases refuses with
  | own performs refused => exact .own (.afterEffect done performs) refused
  | inside calls refused => exact .inside (.afterEffect done calls) refused

theorem Plan.Refuses.afterTask {role : Role} {part : Task} {next : part.Result → Plan α}
    {result : part.Result} (done : role.around (part.run fuel) machine = .done result reached)
    (refuses : (next result).Refuses fuel reached message span) :
    (task role part next).Refuses fuel machine message span := by
  cases refuses with
  | own performs refused => exact .own (.afterTask done performs) refused
  | inside calls refused => exact .inside (.afterTask done calls) refused

theorem Plan.Refuses.within {task : Task} (refuses : task.plan.Refuses fuel machine message span)
    (role : Role) : Config.Refuses ⟨fuel + 1, role, task, machine⟩ message span := by
  cases refuses with
  | own performs refused => exact ⟨0, _, _, _, .start, .intro performs, refused⟩
  | inside calls refuses =>
    obtain ⟨active, config, change, there, within, performs, refused⟩ := refuses
    exact ⟨_, config, change, there, within.under (.intro calls), performs, refused⟩

theorem Effect.IsRefused.failed {change : Effect}
    (refused : change.IsRefused machine message span) :
    ∃ host, change.run machine = .failed (.native message span) { machine with host := host } := by
  cases refused with
  | callNative known same refused =>
    obtain ⟨host, failed, _⟩ := Course.run_refused refused span
    refine ⟨host, ?_⟩
    rw [run, Evaluation.callNative_eq known, same, failed]
    rfl

theorem Request.Refuses.failed {request : Request}
    (refuses : request.Refuses fuel machine message span) :
    ∃ after, request.perform fuel machine = .failed (.runtime (.native message span)) after := by
  obtain ⟨task, first, begins, active, config, change, there, within, performs, refused⟩ := refuses
  obtain ⟨host, failed⟩ := refused.failed
  exact ⟨_, begins.failed (within.failed (performs.failed failed))⟩

end

/-! Both machines side by side -/

namespace Role

theorem enter_boundless (role : Role) (machine : Machine) :
    role.enter machine.boundless = (role.enter machine).boundless := by
  cases role <;> rfl

theorem leave_boundless (role : Role) (machine : Machine) :
    role.leave machine.boundless = (role.leave machine).boundless := by
  cases role <;> rfl

theorem output_leave (role : Role) (machine : Machine) :
    (role.leave machine).output = machine.output := by
  cases role <;> rfl

end Role

/-- The second outcome, on a sink that is never full, is the same; or else a text was refused, and
what was written before that is where the second output begins. -/
def Outcome.Truncates {α : Type} (refuses : String → Span → Prop)
    (limited unlimited : Outcome RuntimeError Machine α) : Prop :=
  unlimited = limited.boundless ∨
    ∃ message span after, refuses message span ∧
      limited = .failed (.native message span) after ∧
      unlimited.Extends Machine.output after.output

section

variable {fuel : Nat} {α β : Type} {machine : Machine} {refuses own : String → Span → Prop}

namespace Outcome.Truncates

theorem mono {limited unlimited : Outcome RuntimeError Machine α}
    (truncates : Truncates own limited unlimited)
    (implies : ∀ message span, own message span → refuses message span) :
    Truncates refuses limited unlimited := by
  rcases truncates with same | ⟨message, span, after, refused, cut⟩
  · exact .inl same
  · exact .inr ⟨message, span, after, implies message span refused, cut⟩

/-- One action after the other. Where the first one is cut short, the second one is still to come on
the other machine, and may write more. -/
theorem bind {first : Evaluation α} {next : α → Evaluation β}
    (truncates : Truncates refuses (first machine) (first machine.boundless))
    (goesOn : ∀ value reached, first machine = .done value reached →
      Truncates refuses (next value reached) (next value reached.boundless))
    (grows : ∀ value reached, first machine.boundless = .done value reached →
      (next value reached).Extends Machine.output reached.output) :
    Truncates refuses ((first >>= next) machine) ((first >>= next) machine.boundless) := by
  rw [Action.bind_apply, Action.bind_apply]
  rcases truncates with same | ⟨message, span, after, refused, failed, begins⟩
  · rw [same]
    cases outcome : first machine with
    | done value reached => exact goesOn value reached outcome
    | failed error reached => exact .inl rfl
    | cutOff => exact .inl rfl
  · rw [failed]
    refine .inr ⟨message, span, after, refused, rfl, ?_⟩
    cases outcome : first machine.boundless with
    | done value reached =>
      rw [outcome] at begins
      exact (grows value reached outcome).mono (fun _ _ more => begins.trans more)
        fun _ _ more => begins.trans more
    | failed error reached =>
      rw [outcome] at begins
      exact begins
    | cutOff => trivial

theorem around {action : Evaluation α} (role : Role)
    (truncates : Truncates refuses (action (role.enter machine))
      (action (role.enter machine).boundless)) :
    Truncates refuses (role.around action machine) (role.around action machine.boundless) := by
  rcases truncates with same | ⟨message, span, after, refused, failed, begins⟩
  · refine .inl ?_
    rw [Role.around_apply, Role.around_apply, Role.enter_boundless, same]
    cases action (role.enter machine) with
    | done value after => exact congrArg (Outcome.done value) (role.leave_boundless after)
    | failed error after => exact congrArg (Outcome.failed error) (role.leave_boundless after)
    | cutOff => rfl
  · refine .inr ⟨message, span, role.leave after, refused, ?_, Role.meets_around ?_⟩
    · rw [Role.around_apply, failed]
    · simp only [Role.output_leave, Role.enter_boundless]
      exact begins

end Outcome.Truncates

/-- Of all effects only calls of functions of the host depend on the room, and only where a text is
refused. -/
theorem Effect.truncates (change : Effect) (courses : machine.HasCourses) :
    Outcome.Truncates (change.IsRefused machine) (change.run machine)
      (change.run machine.boundless) := by
  cases change with
  | lookUp scope name span =>
    refine .inl ?_
    unfold run Evaluation.lookUp
    dsimp only [Machine.boundless]
    cases machine.store.get scope name span <;> rfl
  | assign scope name value span =>
    refine .inl ?_
    unfold run Evaluation.assign
    dsimp only [Machine.boundless]
    cases machine.store.owner? scope name <;> rfl
  | applyUnary op operand span =>
    refine .inl ?_
    rw [run, Evaluation.ofExcept.eq_def]
    cases op.apply operand span <;> rfl
  | applyBinary op left right span =>
    refine .inl ?_
    rw [run, Evaluation.ofExcept.eq_def]
    cases op.apply left right span <;> rfl
  | checkArity name expected found span =>
    refine .inl ?_
    unfold run Evaluation.checkArity
    dsimp only
    split <;> rfl
  | checkDepth span =>
    refine .inl ?_
    unfold run Evaluation.checkDepth
    dsimp only [Machine.boundless]
    split <;> rfl
  | callNative native arguments span =>
    cases known : machine.behaviours[native.identity]? with
    | none =>
      refine .inl ?_
      unfold run Evaluation.callNative
      dsimp only [Machine.boundless]
      rw [known]
      rfl
    | some behaviour =>
      -- here alone the room in the sink matters
      obtain ⟨course, same⟩ := courses behaviour (Array.mem_of_getElem? known) arguments span
      have roomy : machine.boundless.behaviours[native.identity]? = some behaviour := known
      rw [run, Evaluation.callNative_eq known, Evaluation.callNative_eq roomy, same]
      cases refused : course.refusal? machine.host with
      | none =>
        refine .inl ?_
        rw [show machine.boundless.host = machine.host.boundless from rfl,
          course.run_boundless refused span]
        cases course.run span machine.host <;> rfl
      | some message =>
        obtain ⟨host, failed, begins⟩ := course.run_refused refused span
        rw [failed]
        exact .inr ⟨message, span, { machine with host := host }, .callNative known same refused,
          rfl, Outcome.meets_mapState.mpr begins⟩
  | _ => exact .inl rfl

theorem Plan.extends_run (plan : Plan α) (courses : machine.HasCourses) :
    (plan.run fuel machine).Extends Machine.output machine.output :=
  (Machine.extends_kept.plan (Machine.extends_kept.run fuel) plan machine).mono
    (fun _ _ step => step.output courses) fun _ _ step => step.output courses

theorem Plan.truncates
    (tasks : ∀ (role : Role) (task : Task) (machine : Machine), machine.HasCourses →
      Outcome.Truncates (Config.Refuses ⟨fuel, role, task, machine⟩) (task.run fuel machine)
        (task.run fuel machine.boundless))
    (plan : Plan α) (courses : machine.HasCourses) :
    Outcome.Truncates (plan.Refuses fuel machine) (plan.run fuel machine)
      (plan.run fuel machine.boundless) := by
  -- the machine with more room has the same functions of the host
  have boundless : machine.boundless.HasCourses := courses
  -- on the plan: up to the first refusal both machines come to the same parts of it
  induction plan generalizing machine with
  | done value => exact .inl rfl
  | effect change next ih =>
    refine .bind ?_ (fun result reached done => ?_) fun result reached done => ?_
    · exact (change.truncates courses).mono fun _ _ refused => .own .here refused
    · have still := (Machine.extends_kept.effect_done done).hasCourses courses
      exact (ih result still still).mono fun _ _ refused => refused.afterEffect done
    · have still := (Machine.extends_kept.effect_done done).hasCourses boundless
      exact (next result).extends_run still
  | task role part next ih =>
    have entered : (role.enter machine).HasCourses := by
      rw [Machine.HasCourses, Role.behaviours_enter]
      exact courses
    refine .bind (.around role ?_) (fun result reached done => ?_) fun result reached done => ?_
    · exact (tasks role part _ entered).mono fun _ _ refused => .inside .here refused
    · have still := (Machine.extends_kept.around_run role part done).hasCourses courses
      exact (ih result still still).mono fun _ _ refused => refused.afterTask done
    · have still := (Machine.extends_kept.around_run role part done).hasCourses boundless
      exact (next result).extends_run still

theorem Task.truncates (fuel : Nat) (role : Role) (task : Task) (machine : Machine)
    (courses : machine.HasCourses) :
    Outcome.Truncates (Config.Refuses ⟨fuel, role, task, machine⟩) (task.run fuel machine)
      (task.run fuel machine.boundless) := by
  induction fuel generalizing role task machine with
  | zero =>
    rw [Task.run_zero, Task.run_zero]
    exact .inl rfl
  | succ fuel ih =>
    rw [Task.run_succ]
    exact (task.plan.truncates ih courses).mono
      fun _ _ refused => refused.within role

theorem Plan.only_program (statements : List Node) (last : Option Value) :
    (program statements last).Only (fun _ => False) fun _ _ => True :=
  keeps_program (fun _ _ => trivial) last

theorem Evaluation.truncates_execute (fuel : Nat) (tree : Node) (courses : machine.HasCourses) :
    Outcome.Truncates ((Request.execute tree).Refuses fuel machine) (execute fuel tree machine)
      (execute fuel tree machine.boundless) := by
  rw [execute_eq, ← Plan.run_program]
  apply (Plan.truncates (Task.truncates fuel) _ courses).mono
  intro message span refuses
  cases refuses with
  | own performs _ => exact ((Plan.only_program _ _).of_performs performs).elim
  | inside calls refuses =>
    obtain ⟨statement, rfl, rfl, executes⟩ := calls.executes
    exact ⟨_, _, .execute executes, refuses⟩

end

/-! Requests on a sink that can be full -/

/-- What is different about an outcome because a sink can be full. Where no text was refused, only
the room is. Where one was, the call that was to write it has failed, and the output is where the
output on a sink that is never full begins. -/
structure Outcome.OnlyTruncates {ε α : Type} (native : String → Span → ε)
    (refuses : String → Span → Prop) (limited unlimited : Outcome ε Machine α) : Prop where
  ends : unlimited ≠ .cutOff → limited ≠ .cutOff
  same : (∀ message span, ¬refuses message span) → unlimited = limited.boundless
  cut : ∀ message span, refuses message span → ∃ after,
    limited = .failed (native message span) after ∧
      unlimited.Extends Machine.output after.output

section

variable {α : Type} {refuses : String → Span → Prop}
  {limited unlimited : Outcome RuntimeError Machine α}

/-- There is no more than one refusal: it ends the outcome. -/
theorem Outcome.Truncates.only (truncates : Truncates refuses limited unlimited)
    (fails : ∀ message span, refuses message span →
      ∃ after, limited = .failed (.native message span) after) :
    OnlyTruncates .native refuses limited unlimited where
  ends unlimitedEnds := by
    rcases truncates with rfl | ⟨message, span, after, _, rfl, _⟩
    · rintro rfl
      exact unlimitedEnds rfl
    · simp
  same unrefused := by
    rcases truncates with same | ⟨message, span, _, refused, _⟩
    · exact same
    · exact absurd refused (unrefused message span)
  cut message span refused := by
    obtain ⟨after, failed⟩ := fails message span refused
    refine ⟨after, failed, ?_⟩
    rcases truncates with rfl | ⟨_, _, _, _, same, begins⟩
    · rw [failed]
      exact List.prefix_rfl
    · rw [failed] at same
      cases same
      exact begins

theorem Outcome.OnlyTruncates.mapError {ε : Type} {native : String → Span → RuntimeError}
    (only : OnlyTruncates native refuses limited unlimited) (change : RuntimeError → ε) :
    OnlyTruncates (fun message span => change (native message span)) refuses
      (limited.mapError change) (unlimited.mapError change) where
  ends unlimitedEnds := by
    have ends : unlimited ≠ .cutOff := by
      rintro rfl
      exact unlimitedEnds rfl
    have others := only.ends ends
    cases limited with
    | cutOff => exact absurd rfl others
    | _ => simp [Outcome.mapError]
  same unrefused := by
    rw [only.same unrefused]
    cases limited <;> rfl
  cut message span refused := by
    obtain ⟨after, rfl, begins⟩ := only.cut message span refused
    exact ⟨after, rfl, meets_mapError.mpr begins⟩

end

theorem Request.refuses_run_iff {fuel : Nat} {machine : Machine} {source : List Char} {tree : Node}
    (read : readProgram source = .ok tree) {message : String} {span : Span} :
    (Request.run source).Refuses fuel machine message span ↔
      (Request.execute tree).Refuses fuel machine message span := by
  constructor
  · rintro ⟨task, there, begins, refuses⟩
    cases begins with
    | run readToo executes =>
      cases read.symm.trans readToo
      exact ⟨_, _, .execute executes, refuses⟩
  · rintro ⟨task, there, begins, refuses⟩
    cases begins with
    | execute executes => exact ⟨_, _, .run read executes, refuses⟩

theorem Evaluation.execute_only_truncates {machine : Machine} (courses : machine.HasCourses)
    (fuel : Nat) (tree : Node) :
    (execute fuel tree machine).OnlyTruncates .native ((Request.execute tree).Refuses fuel machine)
      (execute fuel tree machine.boundless) := by
  apply (truncates_execute fuel tree courses).only
  intro message span refuses
  obtain ⟨after, failed⟩ := refuses.failed
  exact ⟨after, Outcome.of_mapError_runtime (Outcome.of_settled_failed failed)⟩

/-- A sink that is full only truncates. A program that ends with a sink that is never full ends with
any other sink too. If no text is refused on the way, it comes to the same value or error, and to
the same machine but for the room in the sink. If one is refused, the run fails with the error of
the call that was to write it, and what it has written is where the whole output begins. This is so
on every machine whose functions of the host only write and read the clock, and fail when they are
refused. -/
theorem Machine.full_sink_only_truncates {machine : Machine} (courses : machine.HasCourses)
    (fuel : Nat) :
    (∀ source, (machine.run fuel source).OnlyTruncates
      (fun message span => .runtime (.native message span))
      ((Request.run source).Refuses fuel machine) (machine.boundless.run fuel source)) ∧
    ∀ tree, (Evaluation.execute fuel tree machine).OnlyTruncates .native
      ((Request.execute tree).Refuses fuel machine)
      (Evaluation.execute fuel tree machine.boundless) := by
  refine ⟨fun source => ?_, Evaluation.execute_only_truncates courses fuel⟩
  rw [run, run]
  cases read : readProgram source with
  | error error =>
    -- nothing is evaluated where nothing can be read
    refine ⟨fun _ => by simp, fun _ => rfl, ?_⟩
    rintro message span ⟨task, there, begins, _⟩
    cases begins with
    | run readToo _ => cases read.symm.trans readToo
  | ok tree =>
    have same : (Request.run source).Refuses fuel machine =
        (Request.execute tree).Refuses fuel machine :=
      funext fun _ => funext fun _ => propext (Request.refuses_run_iff read)
    rw [same]
    exact (Evaluation.execute_only_truncates courses fuel tree).mapError Failure.runtime

def Outcome.failedOutput? {ε α : Type} : Outcome ε Machine α → Option (List Char)
  | .failed _ after => some after.output
  | _ => none

/-- There is room for what is printed, but not for the line feed after it. -/
theorem printed_without_its_line_feed :
    ∃ machine : Machine, machine.HasCourses ∧ ∃ message span after,
      (Request.run "print(nil);".toList).Refuses 9 machine message span ∧
      machine.run 9 "print(nil);".toList =
        .failed (.runtime (.native message span)) after ∧
      after.output = "nil".toList ∧
      (machine.boundless.run 9 "print(nil);".toList).Extends Machine.output after.output := by
  let machine := Machine.start 1 (.ofCapacity 3) ⟨fun _ => some 0⟩
  have courses : machine.HasCourses := Machine.start_hasCourses 1 (.ofCapacity 3) ⟨fun _ => some 0⟩
  have only := (Machine.full_sink_only_truncates courses 9).1 "print(nil);".toList
  have printed : (machine.run 9 "print(nil);".toList).failedOutput? = some "nil".toList := by
    decide +kernel
  have whole : (machine.boundless.run 9 "print(nil);".toList).failedOutput? = none := by
    decide +kernel
  -- without a refusal the run would come to what it comes to with room, and that is no failure
  by_cases unrefused : ∀ message span,
      ¬(Request.run "print(nil);".toList).Refuses 9 machine message span
  · rw [only.same unrefused] at whole
    cases outcome : machine.run 9 "print(nil);".toList with
    | failed error after =>
      rw [outcome] at whole
      cases whole
    | _ =>
      rw [outcome] at printed
      cases printed
  · obtain ⟨message, span, refuses⟩ : ∃ message span,
        (Request.run "print(nil);".toList).Refuses 9 machine message span := by
      simpa using unrefused
    obtain ⟨after, failed, begins⟩ := only.cut message span refuses
    rw [failed] at printed
    exact ⟨machine, courses, message, span, after, refuses, failed, Option.some.inj printed, begins⟩

end Scriptlet
