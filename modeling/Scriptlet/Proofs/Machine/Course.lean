import Scriptlet.Proofs.Machine.Plain

/-! What functions of the host write, and sinks that are never full. -/

set_option autoImplicit false

namespace Scriptlet

/-! Sinks that are never full -/

def Sink.boundless (sink : Sink) : Sink := { sink with room := none }

theorem Sink.written_of_write? {sink taken : Sink} {text : String}
    (accepted : sink.write? text = some taken) : taken.written = sink.written ++ text := by
  unfold write? at accepted
  split at accepted
  · cases accepted
    rfl
  · split at accepted <;> cases accepted
    rfl

theorem Sink.boundless_write? {sink taken : Sink} {text : String}
    (accepted : sink.write? text = some taken) :
    sink.boundless.write? text = some taken.boundless := by
  rw [boundless, boundless, written_of_write? accepted]
  rfl

namespace Host

def boundless (host : Host) : Host := { host with sink := host.sink.boundless }

def output (host : Host) : List Char := host.sink.written.toList

end Host

def Outcome.mapState {ε σ τ α : Type} (change : σ → τ) : Outcome ε σ α → Outcome ε τ α
  | .done value state => .done value (change state)
  | .failed error state => .failed error (change state)
  | .cutOff => .cutOff

theorem Outcome.meets_mapState {ε σ τ α : Type} {outcome : Outcome ε σ α} {change : σ → τ}
    {good : α → τ → Prop} {bad : ε → τ → Prop} :
    (outcome.mapState change).Meets good bad ↔
      outcome.Meets (fun value state => good value (change state))
        fun error state => bad error (change state) := by
  cases outcome <;> rfl

abbrev Outcome.Extends {ε σ α : Type} (output : σ → List Char) (text : List Char)
    (outcome : Outcome ε σ α) : Prop :=
  outcome.Meets (fun _ after => text <+: output after) fun _ after => text <+: output after

/-! Courses -/

/-- What a function of the host does. It writes texts, each with the message that it fails with if
the text is refused, and reads the clock; in the end it gives a value or fails, or it never ends. -/
inductive Course where
  | gives (value : Value)
  | fails (error : RuntimeError)
  | hangs
  | asks (next : Option Float → Course)
  | writes (text message : String) (next : Course)

namespace Course

def run (span : Span) : Course → Action RuntimeError Host Value
  | gives value => pure value
  | fails error => Action.fail error
  | hangs => Action.cutOff
  | asks next => do
    let reading ← Host.readClock
    (next reading).run span
  | writes text message next => do
    Host.write text message span
    next.run span

def refusal? : Course → Host → Option String
  | asks next, host =>
    (next (host.clock.reading? host.asked)).refusal? { host with asked := host.asked + 1 }
  | writes text message next, host =>
    match host.sink.write? text with
    | some sink => next.refusal? { host with sink := sink }
    | none => some message
  | _, _ => none

theorem run_writes (span : Span) (text message : String) (next : Course) (host : Host) :
    (writes text message next).run span host =
      match host.sink.write? text with
      | some sink => next.run span { host with sink := sink }
      | none => .failed (.native message span) host := by
  rw [run, Action.bind_apply, Host.write]
  cases host.sink.write? text <;> rfl

theorem extends_run (course : Course) (span : Span) (host : Host) :
    (course.run span host).Extends Host.output host.output := by
  induction course generalizing host with
  | gives | fails => exact List.prefix_rfl
  | hangs => trivial
  | asks next ih => exact ih _ { host with asked := host.asked + 1 }
  | writes text message next ih =>
    rw [run_writes]
    cases accepted : host.sink.write? text with
    | none => exact List.prefix_rfl
    | some sink =>
      have before : host.output <+: Host.output { host with sink := sink } := by
        rw [Host.output, Host.output, Sink.written_of_write? accepted, String.toList_append]
        exact List.prefix_append _ _
      exact (ih { host with sink := sink }).mono (fun _ _ after => before.trans after)
        fun _ _ after => before.trans after

variable {course : Course} {host : Host}

/-- A course without refusals does not see how much room there is. -/
theorem run_boundless (accepted : course.refusal? host = none) (span : Span) :
    course.run span host.boundless = (course.run span host).mapState Host.boundless := by
  induction course generalizing host with
  | gives | fails | hangs => rfl
  | asks next ih => exact ih _ accepted
  | writes text message next ih =>
    rw [refusal?] at accepted
    rw [run_writes, run_writes]
    cases taken : host.sink.write? text with
    | none =>
      rw [taken] at accepted
      cases accepted
    | some sink =>
      rw [taken] at accepted
      rw [show host.boundless.sink.write? text = _ from Sink.boundless_write? taken]
      exact ih accepted

/-- A refusal ends a course. What was written up to there is written first where there is room. -/
theorem run_refused {message : String} (refused : course.refusal? host = some message)
    (span : Span) :
    ∃ after, course.run span host = .failed (.native message span) after ∧
      (course.run span host.boundless).Extends Host.output after.output := by
  induction course generalizing host with
  | gives | fails | hangs => cases refused
  | asks next ih => exact ih _ refused
  | writes text own next ih =>
    rw [refusal?] at refused
    rw [run_writes]
    cases taken : host.sink.write? text with
    | none =>
      rw [taken] at refused
      cases refused
      exact ⟨host, rfl, extends_run _ span host.boundless⟩
    | some sink =>
      rw [taken] at refused
      rw [run_writes, show host.boundless.sink.write? text = _ from Sink.boundless_write? taken]
      exact ih refused

end Course

/-- A function of the host that only writes and reads the clock, and that fails in the name of its
call as soon as a text is refused. -/
def Behaviour.HasCourse (behaviour : Behaviour) : Prop :=
  ∀ arguments span, ∃ course : Course, behaviour arguments span = course.run span

namespace Builtin

theorem hasCourse_ofNumber {name : String} {apply : Float → Span → Action RuntimeError Host Value}
    (courses : ∀ value span, ∃ course : Course, apply value span = course.run span) :
    Behaviour.HasCourse (ofNumber name apply) := by
  intro arguments span
  unfold ofNumber
  split
  · exact courses _ span
  · exact ⟨.fails _, rfl⟩

theorem hasCourse_print : Behaviour.HasCourse print := fun arguments _ =>
  let message := "print failed: " ++ Host.sinkFull
  let line := " ".intercalate (arguments.map Value.display)
  ⟨.writes line message (.writes "\n" message (.gives .nil)), rfl⟩

theorem hasCourse_len : Behaviour.HasCourse len := by
  intro arguments span
  unfold len
  split
  · exact ⟨.gives _, rfl⟩
  · exact ⟨.fails _, rfl⟩

theorem hasCourse_sqrt : Behaviour.HasCourse sqrt := by
  refine hasCourse_ofNumber fun value span => ?_
  split
  · exact ⟨.fails _, rfl⟩
  · exact ⟨.gives _, rfl⟩

theorem hasCourse_clock : Behaviour.HasCourse clock := by
  intro arguments span
  let without : Course := .fails (.native ("system clock error: " ++ Host.beforeEpoch) span)
  refine ⟨.asks fun reading => reading.elim without fun seconds => .gives (.number seconds), ?_⟩
  funext host
  rw [clock, Course.run, Action.bind_apply, Action.bind_apply, Host.readClock]
  cases host.clock.reading? host.asked <;> rfl

theorem hasCourse_all : ∀ entry ∈ all, Behaviour.HasCourse entry.2.2 := by
  simp only [all, List.forall_mem_cons]
  refine ⟨hasCourse_print, ?_, hasCourse_len, ?_, ?_, ?_, hasCourse_sqrt,
    hasCourse_clock, by simp⟩
  · exact fun _ _ => ⟨.gives _, rfl⟩
  · exact fun _ _ => ⟨.gives _, rfl⟩
  · exact hasCourse_ofNumber fun _ _ => ⟨.gives _, rfl⟩
  · exact hasCourse_ofNumber fun _ _ => ⟨.gives _, rfl⟩

end Builtin

end Scriptlet
