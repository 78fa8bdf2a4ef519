import Scriptlet.Proofs.Machine.Request
import Scriptlet.Proofs.Machine.Signals

/-! The machines that a host comes to by running programs, and the signals in them. -/

set_option autoImplicit false

namespace Scriptlet

open WellFormed

namespace Machine

/-- Values that a host can call or pass: those that a machine has bound to a name in any scope, and
those that are no functions of a program. -/
def Offers (machine : Machine) (value : Value) : Prop :=
  value.IsPlain ∨ ∃ scope, ∃ entry ∈ machine.store.bindingsAt scope, entry.2 = value

/-- What a host evaluates: a statement of a source, in any scope, or a call. -/
inductive Asks (machine : Machine) : Task → Prop where
  | statement {source : List Char} {tree statement : Node} {scope : ScopeId} :
    readProgram source = .ok tree → statement ∈ tree.toplevel →
      Asks machine (.node statement scope)
  | call {callee : Value} {arguments : List Value} {span : Span} :
    machine.Offers callee → (∀ value ∈ arguments, machine.Offers value) →
      Asks machine (.call callee arguments span)

/-- Machines that have run sources one after the other, whether they could be read and however they
ended, and in between whatever else the host has asked for. -/
inductive Reached : Machine → Prop where
  | start (limit : Nat) (sink : Sink) (clock : Clock) : Reached (start limit sink clock)
  | register {machine : Machine} (name : String) (arity : Arity) {behaviour : Behaviour} :
    Reached machine → behaviour.IsSound → Reached (machine.register name arity behaviour)
  | host {machine : Machine} (host : Host) :
    Reached machine → Reached { machine with host := host }
  | ran {machine after : Machine} {fuel : Nat} {source : List Char} {value : Option Value} :
    Reached machine → machine.run fuel source = .done value after → Reached after
  | runFailed {machine after : Machine} {fuel : Nat} {source : List Char} {failure : Failure} :
    Reached machine → machine.run fuel source = .failed failure after → Reached after
  | done {machine after : Machine} {fuel : Nat} {task : Task} {result : task.Result} :
    Reached machine → machine.Asks task → task.run fuel machine = .done result after →
      Reached after
  | failed {machine after : Machine} {fuel : Nat} {task : Task} {error : RuntimeError} :
    Reached machine → machine.Asks task → task.run fuel machine = .failed error after →
      Reached after

end Machine

/-! Machines that are reached hold functions that the grammar has read -/

theorem Machine.IsSound.offers {machine : Machine} (sound : machine.IsSound) {value : Value}
    (offered : machine.Offers value) : value.IsSound := by
  rcases offered with plain | ⟨scope, entry, member, rfl⟩
  · exact plain.isSound
  · exact sound.store.of_mem_bindingsAt member

theorem Machine.IsSound.register {machine : Machine} (sound : machine.IsSound) (name : String)
    (arity : Arity) {behaviour : Behaviour} (soundBehaviour : behaviour.IsSound) :
    (machine.register name arity behaviour).IsSound := by
  refine ⟨sound.store.define root name trivial, fun other member => ?_⟩
  rcases Array.mem_push.mp member with old | rfl
  · exact sound.behaviours other old
  · exact soundBehaviour

theorem WellFormed.statement_of_readProgram {source : List Char} {tree statement : Node}
    (read : readProgram source = .ok tree) (member : statement ∈ tree.toplevel) :
    Statement false statement := by
  cases WellFormed.Program.of_readProgram read with
  | program statements => exact statements statement member

theorem Machine.Asks.isSound {machine : Machine} {task : Task} (asks : machine.Asks task)
    (sound : machine.IsSound) : task.IsSound := by
  cases asks with
  | statement read member => exact ⟨false, .statement (statement_of_readProgram read member)⟩
  | call callee arguments =>
    exact ⟨sound.offers callee, fun value member => sound.offers (arguments value member)⟩

theorem Task.IsSound.meets {task : Task} (soundTask : task.IsSound) {machine : Machine}
    (sound : machine.IsSound) (fuel : Nat) :
    (task.run fuel machine).Meets (fun result after => task.Gives result ∧ after.IsSound)
      fun _ after => after.IsSound :=
  signalContract_sound.run fuel .part task machine ⟨soundTask, trivial⟩ sound

theorem Machine.IsSound.run {machine : Machine} (sound : machine.IsSound) (fuel : Nat)
    (source : List Char) :
    (machine.run fuel source).Meets (fun _ after => after.IsSound)
      fun _ after => after.IsSound := by
  refine Machine.meets_run (fun tree read statement member there soundThere => ?_) sound
  have soundTask : (Task.node statement root).IsSound :=
    ⟨false, .statement (statement_of_readProgram read member)⟩
  exact (soundTask.meets soundThere fuel).imp fun _ _ meets => meets.2

theorem Machine.Reached.isSound {machine : Machine} (reached : machine.Reached) :
    machine.IsSound := by
  induction reached with
  | start limit sink clock =>
    refine start_induction ⟨Store.All.empty.addFrame none, by simp⟩ ?_
    exact fun _ name arity _ sound plain => sound.register name arity plain.isSound
  | register name arity _ behaviour ih => exact ih.register name arity behaviour
  | host host _ ih => exact ⟨ih.store, ih.behaviours⟩
  | @ran machine _ fuel source _ _ done ih =>
    have meets := ih.run fuel source
    rw [done] at meets
    exact meets
  | @runFailed machine _ fuel source _ _ failed ih =>
    have meets := ih.run fuel source
    rw [failed] at meets
    exact meets
  | @done machine _ fuel _ _ _ asks done ih =>
    have meets := (asks.isSound ih).meets ih fuel
    rw [done] at meets
    exact meets.2
  | @failed machine _ fuel _ _ _ asks failed ih =>
    have meets := (asks.isSound ih).meets ih fuel
    rw [failed] at meets
    exact meets

/-! Signals -/

def Signal.EndsCall : Signal → Prop
  | normal => True
  | returned _ => True
  | _ => False

theorem Signal.Fits.endsCall {signal : Signal} (fits : signal.Fits false) : signal.EndsCall := by
  cases signal with
  | normal => trivial
  | returned value => trivial
  | broken => cases fits
  | continued => cases fits

/-- The loops that the grammar asks for around `break` and `continue` are those that catch them. In
any machine that was reached, a statement of a source that comes to an end has run through or
returned; so has the body of every function that is called on the way; and whatever is evaluated for
its value alone has run through. -/
theorem Machine.Reached.signals_are_caught {machine : Machine} (reached : machine.Reached)
    (fuel : Nat) :
    (∀ source tree statement scope, readProgram source = .ok tree → statement ∈ tree.toplevel →
      ∀ completion after,
        Evaluation.evaluate fuel statement scope machine = .done completion after →
        completion.signal.EndsCall) ∧
    ∀ task active config, machine.Asks task →
      Config.Within ⟨fuel, .part, task, machine⟩ active config →
      (config.role = .body → ∃ nodes scope, config.task = .statements nodes scope ∧
        ∀ completion after,
          Evaluation.runEach config.steps nodes scope config.machine = .done completion after →
          completion.signal.EndsCall) ∧
      (config.role = .operand → ∃ tree scope, config.task = .node tree scope ∧
        ∀ completion after,
          Evaluation.evaluate config.steps tree scope config.machine = .done completion after →
          completion.signal = .normal) := by
  have sound := reached.isSound
  refine ⟨fun source tree statement scope read member completion after done => ?_,
    fun task active config asks within => ?_⟩
  · have runnable : Runnable false statement := .statement (statement_of_readProgram read member)
    have first : (Task.node statement scope).IsSound := ⟨false, runnable⟩
    have meets := first.meets sound fuel
    rw [Task.run, done] at meets
    exact (meets.1.2.2 false runnable).endsCall
  · obtain ⟨steps, role, part, there⟩ := config
    have inside := signalContract_sound.within within ⟨asks.isSound sound, trivial⟩ sound
    -- the contract says of each role what is evaluated in it and how that is left
    obtain ⟨⟨soundPart, fitsRole⟩, soundThere⟩ := inside
    have meets := soundPart.meets soundThere steps
    constructor
    · rintro rfl
      cases part with
      | statements nodes scope =>
        refine ⟨nodes, scope, rfl, fun completion after done => ?_⟩
        rw [Task.run, done] at meets
        exact (meets.1.2 false fun node member => .statement (fitsRole node member)).endsCall
      | _ => cases fitsRole
    · rintro rfl
      cases part with
      | node tree scope =>
        refine ⟨tree, scope, rfl, fun completion after done => ?_⟩
        rw [Task.run, done] at meets
        exact meets.1.2.1 fitsRole
      | _ => cases fitsRole

def Node.isBrokenLoop : Node → Bool
  | .loop _ (.boolean _ true) (.break _) none => true
  | _ => false

theorem Node.evaluate_brokenLoop {statement : Node} (broken : statement.isBrokenLoop = true)
    (scope : ScopeId) (machine : Machine) :
    Evaluation.evaluate 3 statement scope machine = .done ⟨.nil, .normal⟩ machine := by
  unfold isBrokenLoop at broken
  split at broken
  · simp [Evaluation.evaluate, Evaluation.runLoop, Evaluation.valueOf, Evaluation.normally,
      Evaluation.leaving, Action.bind_apply, Action.pure_apply, Value.isTruthy]
  · cases broken

theorem brokenLoop_is_over :
    (Machine.start 0 .unlimited ⟨fun _ => some 0⟩).Reached ∧
    ∃ tree statement completion after, readProgram "while (true) break;".toList = .ok tree ∧
      statement ∈ tree.toplevel ∧ statement.isBrokenLoop = true ∧
      Evaluation.evaluate 3 statement Machine.root (.start 0 .unlimited ⟨fun _ => some 0⟩) =
        .done completion after ∧
      completion.signal.EndsCall := by
  have reached : (Machine.start 0 .unlimited ⟨fun _ => some 0⟩).Reached := .start _ _ _
  have shape : (readProgram "while (true) break;".toList).toOption.map
      (fun tree => tree.toplevel.map Node.isBrokenLoop) = some [true] := by decide +kernel
  cases read : readProgram "while (true) break;".toList with
  | error error =>
    rw [read] at shape
    cases shape
  | ok tree =>
    rw [read] at shape
    obtain ⟨statement, alone, broken⟩ := List.map_eq_singleton_iff.mp (Option.some.inj shape)
    have member : statement ∈ tree.toplevel := by
      rw [alone]
      exact List.mem_singleton.mpr rfl
    have ends := Node.evaluate_brokenLoop broken Machine.root (.start 0 .unlimited ⟨fun _ => some 0⟩)
    have caught := (reached.signals_are_caught 3).1 _ tree statement _ read member _ _ ends
    exact ⟨reached, tree, statement, _, _, rfl, member, broken, ends, caught⟩

end Scriptlet
