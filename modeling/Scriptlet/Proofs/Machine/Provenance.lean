import Scriptlet.Proofs.Grammar.Placed
import Scriptlet.Proofs.Machine.Blame
import Scriptlet.Proofs.Machine.Code
import Scriptlet.Proofs.Machine.Request
import Scriptlet.Proofs.Scope.Lookup

/-! Where errors come from: each is about a node of a source that has been run, and stands there. -/

set_option autoImplicit false

namespace Scriptlet

theorem Behaviour.Answers.isKnown {others : Behaviour → Prop} {known : Node → Prop}
    {behaviour : Behaviour} (answers : behaviour.Answers others) {arguments : List Value}
    (given : ∀ value ∈ arguments, Value.IsKnown known value) {span : Span} {host after : Host}
    {value : Value} (done : behaviour arguments span host = .done value after) :
    value.IsKnown known := by
  have meets := answers.values arguments span host
  rw [done] at meets
  rcases meets with isFrom | member
  · cases value with
    | closure made => exact absurd isFrom List.not_mem_nil
    | _ => trivial
  · exact given value member

structure Machine.IsKnown (others : Behaviour → Prop) (known : Node → Prop) (machine : Machine) :
    Prop where
  store : machine.store.All (Value.IsKnown known)
  behaviours : ∀ behaviour ∈ machine.behaviours, Behaviour.Answers others behaviour

section

variable {others : Behaviour → Prop} {code : Code} {change : Effect} {machine : Machine}

theorem Effect.meets_known (anywhere : ∀ scope, code.opened scope) (isKnown : change.IsKnown code)
    (holds : machine.IsKnown others code.known) :
    (change.run machine).Meets
      (fun result after => change.GivesKnown code result ∧ after.IsKnown others code.known)
      fun _ after => after.IsKnown others code.known := by
  refine (change.meets_run machine).mono (fun result after done => ?_) fun error after fails => ?_
  · cases done with
    | lookUp found => exact ⟨holds.store.of_get found, holds⟩
    | @assign scope owner name value span machine found =>
      exact ⟨trivial, holds.store.define owner name isKnown.1, holds.behaviours⟩
    | @define scope name value machine =>
      exact ⟨trivial, holds.store.define scope name isKnown.1, holds.behaviours⟩
    | @openScope outer machine =>
      exact ⟨anywhere _, holds.store.addFrame (some outer), holds.behaviours⟩
    | makeClosure => exact ⟨isKnown, holds.store, holds.behaviours⟩
    | applyUnary applied => exact ⟨(UnaryOp.isPlain_of_apply applied).isKnown code.known, holds⟩
    | applyBinary applied => exact ⟨(BinaryOp.isPlain_of_apply applied).isKnown code.known, holds⟩
    | checkArity => exact ⟨trivial, holds⟩
    | checkDepth => exact ⟨trivial, holds⟩
    | callNative found outcome =>
      have answers := holds.behaviours _ (Array.mem_of_getElem? found)
      exact ⟨answers.isKnown isKnown.1 outcome, holds.store, holds.behaviours⟩
  · cases fails <;> exact ⟨holds.store, holds.behaviours⟩

theorem Machine.IsKnown.keeps (anywhere : ∀ scope, code.opened scope) (others : Behaviour → Prop) :
    code.Keeps (Machine.IsKnown others code.known) where
  enter role machine holds := by cases role <;> exact ⟨holds.store, holds.behaviours⟩
  leave role machine holds := by cases role <;> exact ⟨holds.store, holds.behaviours⟩
  effect := Effect.meets_known anywhere

theorem Effect.Fails.isAbout {error : RuntimeError} {after : Machine}
    (fails : change.Fails machine error after) (isKnown : change.IsKnown code)
    (holds : machine.IsKnown others code.known) :
    ∃ node, code.known node ∧ error.IsAbout others node := by
  cases fails with
  | lookUp failed =>
    rw [Store.get_error failed]
    exact ⟨_, isKnown, .undefinedVariable⟩
  | assign =>
    obtain ⟨_, node, isKnown⟩ := isKnown
    exact ⟨_, isKnown, .undefinedTarget⟩
  | applyUnary failed =>
    obtain ⟨operand, isKnown⟩ := isKnown
    exact ⟨_, isKnown, UnaryOp.isAbout_of_apply failed others operand⟩
  | applyBinary failed =>
    obtain ⟨left, right, isKnown⟩ := isKnown
    exact ⟨_, isKnown, BinaryOp.isAbout_of_apply failed others left right⟩
  | refuse =>
    obtain ⟨callee, arguments, isKnown⟩ := isKnown
    exact ⟨_, isKnown, .notCallable⟩
  | checkArity =>
    obtain ⟨callee, arguments, isKnown⟩ := isKnown
    exact ⟨_, isKnown, .arityMismatch⟩
  | checkDepth =>
    obtain ⟨callee, arguments, isKnown⟩ := isKnown
    exact ⟨_, isKnown, .stackOverflow⟩
  | unknownNative =>
    obtain ⟨_, callee, arguments, isKnown⟩ := isKnown
    exact ⟨_, isKnown, .notCallable⟩
  | @callNative native arguments span machine behaviour error host found outcome =>
    obtain ⟨_, callee, nodes, isKnown⟩ := isKnown
    have errors := (holds.behaviours behaviour (Array.mem_of_getElem? found)).errors arguments span
      machine.host
    rw [outcome] at errors
    exact ⟨_, isKnown, errors callee nodes⟩

end

/-! Sessions -/

def Node.IsOf (sources : List (List Char)) (node : Node) : Prop :=
  ∃ source ∈ sources, ∃ tree, readProgram source = .ok tree ∧ tree.Contains node

theorem Node.IsOf.child {sources : List (List Char)} {node child : Node} (isOf : node.IsOf sources)
    (member : child ∈ node.children) : child.IsOf sources := by
  obtain ⟨source, isRun, tree, read, contains⟩ := isOf
  exact ⟨source, isRun, tree, read, contains.child member⟩

theorem Node.IsOf.mono {sources later : List (List Char)} {node : Node} (isOf : node.IsOf sources)
    (before : sources ⊆ later) : node.IsOf later := by
  obtain ⟨source, isRun, rest⟩ := isOf
  exact ⟨source, before isRun, rest⟩

theorem Node.isOf_toplevel {sources : List (List Char)} {source : List Char} {tree : Node}
    (read : readProgram source = .ok tree) (isRun : source ∈ sources) :
    ∀ statement ∈ tree.toplevel, statement.IsOf sources := by
  intro statement member
  refine ⟨source, isRun, tree, read, ?_⟩
  cases tree with
  | program => exact .child .self member
  | _ =>
    cases List.mem_singleton.mp member
    exact .self

def Code.ofSources (sources : List (List Char)) : Code where
  known := Node.IsOf sources
  closed isOf _ member := isOf.child member
  opened _ := True

namespace Machine

/-- Machines that have run sources one after the other, whether they could be read and however they
ended. In between the host can register functions, and do what it likes with its own part. -/
inductive HasRun (others : Behaviour → Prop) : List (List Char) → Machine → Prop where
  | start (limit : Nat) (sink : Sink) (clock : Clock) :
    HasRun others [] (start limit sink clock)
  | register {sources : List (List Char)} {machine : Machine} (name : String) (arity : Arity)
    {behaviour : Behaviour} :
    HasRun others sources machine → others behaviour →
      HasRun others sources (machine.register name arity behaviour)
  | host {sources : List (List Char)} {machine : Machine} (host : Host) :
    HasRun others sources machine → HasRun others sources { machine with host := host }
  | ran {sources : List (List Char)} {machine after : Machine} {fuel : Nat} {source : List Char}
    {value : Option Value} :
    HasRun others sources machine → machine.run fuel source = .done value after →
      HasRun others (sources ++ [source]) after
  | runFailed {sources : List (List Char)} {machine after : Machine} {fuel : Nat}
    {source : List Char} {failure : Failure} :
    HasRun others sources machine → machine.run fuel source = .failed failure after →
      HasRun others (sources ++ [source]) after

end Machine

section

variable {others : Behaviour → Prop} {sources : List (List Char)} {machine after : Machine}

theorem Machine.IsKnown.register {known : Node → Prop} (isKnown : machine.IsKnown others known)
    (name : String) (arity : Arity) {behaviour : Behaviour} (answers : behaviour.Answers others) :
    (machine.register name arity behaviour).IsKnown others known := by
  refine ⟨isKnown.store.define root name trivial, fun other member => ?_⟩
  rcases Array.mem_push.mp member with old | rfl
  · exact isKnown.behaviours other old
  · exact answers

theorem Machine.IsKnown.mono {known later : Node → Prop} (isKnown : machine.IsKnown others known)
    (before : ∀ node, known node → later node) : machine.IsKnown others later :=
  ⟨fun frame member entry bound => (isKnown.store frame member entry bound).mono before,
    isKnown.behaviours⟩

/-- What cannot be read fails where it stands in the source itself. What fails while it runs fails
at a node of a source that has been run, one that fits the error. -/
inductive Failure.HasPlace (others : Behaviour → Prop) (sources : List (List Char))
    (source : List Char) : Failure → Prop where
  | lexical {error : LexError} :
    error.span.IsWithin source → HasPlace others sources source (.lexical error)
  | syntactic {error : SyntaxError} :
    error.span.IsWithin source → HasPlace others sources source (.syntactic error)
  | runtime {error : RuntimeError} {origin : List Char} {tree node : Node} :
    origin ∈ sources ++ [source] → readProgram origin = .ok tree → tree.Contains node →
      error.IsAbout others node → error.span = node.span → error.span.IsWithin origin →
      HasPlace others sources source (.runtime error)

theorem Failure.HasPlace.of_syntaxError {source : List Char} {error : SyntaxError}
    (read : readProgram source = .error error) :
    HasPlace others sources source (ofSyntaxError error) := by
  have within := SyntaxError.isWithin read
  cases error with
  | lexical error => exact .lexical within
  | _ => exact .syntactic within

theorem Failure.HasPlace.of_first {source : List Char} {failure : Failure}
    (hasPlace : failure.HasPlace others [] source) : failure.span.IsWithin source := by
  cases hasPlace with
  | lexical within => exact within
  | syntactic within => exact within
  | runtime isRun _ _ _ _ within =>
    cases List.mem_singleton.mp isRun
    exact within

theorem Failure.HasPlace.of_isAbout {source : List Char} {error : RuntimeError} {node : Node}
    (isOf : node.IsOf (sources ++ [source])) (isAbout : error.IsAbout others node) :
    HasPlace others sources source (.runtime error) := by
  obtain ⟨origin, isRun, tree, read, contains⟩ := isOf
  have same := isAbout.span_eq
  refine .runtime isRun read contains isAbout same ?_
  rw [same]
  exact contains.isWithin read

theorem Machine.IsKnown.run (isKnown : machine.IsKnown others (Node.IsOf sources)) (fuel : Nat)
    (source : List Char) :
    (machine.run fuel source).Meets
      (fun _ after => after.IsKnown others (Node.IsOf (sources ++ [source])))
      fun failure after => after.IsKnown others (Node.IsOf (sources ++ [source])) ∧
        failure.HasPlace others sources source := by
  have later : machine.IsKnown others (Node.IsOf (sources ++ [source])) :=
    isKnown.mono fun node isOf => isOf.mono (List.subset_append_left _ _)
  have keeps : (Code.ofSources (sources ++ [source])).Keeps
      (Machine.IsKnown others (Node.IsOf (sources ++ [source]))) :=
    Machine.IsKnown.keeps (fun _ => trivial) others
  rw [Machine.run]
  cases read : readProgram source with
  | error error => exact ⟨later, .of_syntaxError read⟩
  | ok tree =>
    have isRun : source ∈ sources ++ [source] :=
      List.mem_append_right sources (List.mem_singleton.mpr rfl)
    have keepsToCode : (Plan.program tree.toplevel none).KeepsToCode
        (.ofSources (sources ++ [source])) fun _ => True :=
      Plan.keepsToCode_program (Node.isOf_toplevel read isRun) none
    have follows := keepsToCode.follows keeps
    have meets := keeps.sound.meets_plan (keeps.sound.run fuel) follows.respects later
    dsimp only
    rw [Outcome.meets_mapError, Evaluation.execute_eq, ← Plan.run_program]
    cases outcome : (Plan.program tree.toplevel none).run fuel machine with
    | done value after =>
      rw [outcome] at meets
      exact meets.2
    | cutOff => trivial
    | failed error after =>
      rw [outcome] at meets
      -- the error comes from an effect on the way, and that is on behalf of some node
      obtain ⟨change, there, reached, isAllowed, holds, failed⟩ :=
        keeps.sound.failed_plan_from_allowed keeps.follows follows later outcome
      obtain ⟨node, isOf, isAbout⟩ := (Effect.fails_of_run failed).isAbout isAllowed holds
      exact ⟨meets, .of_isAbout isOf isAbout⟩

theorem Machine.HasRun.isKnown
    (report : ∀ behaviour, others behaviour → behaviour.IsConfined [] ∧ behaviour.ReportsCall)
    (hasRun : machine.HasRun others sources) :
    machine.IsKnown others (Node.IsOf sources) := by
  induction hasRun with
  | start limit sink clock =>
    refine start_induction_on (Builtin.answers_all others)
      ⟨Store.All.empty.addFrame none, by simp⟩ ?_
    exact fun _ name arity _ isKnown answers => isKnown.register name arity answers
  | register name arity _ other ih =>
    obtain ⟨confined, reports⟩ := report _ other
    exact ih.register name arity (.of_reportsCall other confined reports)
  | host host _ ih => exact ⟨ih.store, ih.behaviours⟩
  | @ran _ machine _ fuel source _ _ done ih =>
    have meets := ih.run fuel source
    rw [done] at meets
    exact meets
  | @runFailed _ machine _ fuel source _ _ failed ih =>
    have meets := ih.run fuel source
    rw [failed] at meets
    exact meets.1

/-- Every failure of a session has its place, if functions of the host report the call that they
are told of. The failure of the first source that is run stands in that source. -/
theorem Machine.HasRun.failure_has_place
    (report : ∀ behaviour, others behaviour → behaviour.IsConfined [] ∧ behaviour.ReportsCall)
    (hasRun : machine.HasRun others sources) {fuel : Nat} {source : List Char} {failure : Failure}
    (failed : machine.run fuel source = .failed failure after) :
    failure.HasPlace others sources source ∧
    (sources = [] →
      failure.span.IsWithin source ∧ (failure.span.slice? source).isSome = true) := by
  have hasPlace : failure.HasPlace others sources source := by
    have meets := (hasRun.isKnown report).run fuel source
    rw [failed] at meets
    exact meets.2
  refine ⟨hasPlace, ?_⟩
  rintro rfl
  exact ⟨hasPlace.of_first, hasPlace.of_first.slice?_isSome⟩

end

def Outcome.failure? {ε σ α : Type} : Outcome ε σ α → Option ε
  | failed error _ => some error
  | _ => none

theorem Outcome.failure?_eq_some_iff {ε σ α : Type} {outcome : Outcome ε σ α} {error : ε} :
    outcome.failure? = some error ↔ ∃ state, outcome = failed error state := by
  cases outcome <;> simp [failure?]

theorem Builtin.reportsCall_len : Behaviour.ReportsCall len := by
  intro arguments span host
  unfold len
  cases first arguments with
  | string text => trivial
  | _ => rfl

/-- What a function of the host reports in a function of an earlier source, which stands there. -/
theorem earlier_call_is_blamed :
    ∃ (first second : List Char) (machine after : Machine) (failure : Failure),
      (∀ behaviour, behaviour = Builtin.len →
        Behaviour.IsConfined [] behaviour ∧ behaviour.ReportsCall) ∧
      machine.HasRun (· = Builtin.len) [first] ∧
      machine.run 9 second = .failed failure after ∧
      failure.HasPlace (· = Builtin.len) [first] second ∧
      failure.span = ⟨16, 25⟩ ∧ second.length = 4 := by
  let first := "fn f() \x7b return size(nil); \x7d".toList
  let second := "f();".toList
  let start : Machine := .register (.start 4 .unlimited ⟨fun _ => some 0⟩) "size" (.exactly 1) Builtin.len
  have silent : (start.run 9 first).failure? = none := by decide +kernel
  have told : ((Machine.run 9 first >>= fun _ => Machine.run 9 second) start).failure?.map
      Failure.span = some ⟨16, 25⟩ := by decide +kernel
  obtain ⟨failure, found, span⟩ := Option.map_eq_some_iff.mp told
  obtain ⟨after, both⟩ := Outcome.failure?_eq_some_iff.mp found
  rcases Action.bind_eq_failed_iff.mp both with early | ⟨value, machine, ran, failed⟩
  · rw [early] at silent
    cases silent
  · have report : ∀ behaviour, behaviour = Builtin.len →
        Behaviour.IsConfined [] behaviour ∧ behaviour.ReportsCall := by
      rintro _ rfl
      exact ⟨Builtin.isPlain_len.isConfined [], Builtin.reportsCall_len⟩
    have registered : start.HasRun (· = Builtin.len) [] := .register _ _ (.start _ _ _) rfl
    have hasRun : machine.HasRun (· = Builtin.len) [first] := registered.ran ran
    have place := hasRun.failure_has_place report failed
    exact ⟨first, second, machine, after, failure, report, hasRun, failed, place.1, span, rfl⟩

end Scriptlet
