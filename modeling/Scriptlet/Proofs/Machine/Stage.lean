import Mathlib.Logic.Relation
import Scriptlet.Proofs.Machine.CallDepth
import Scriptlet.Proofs.Machine.Making

/-! The stages that a machine passes while a host works with it, and what its scopes and functions
are like at each of them and on the way.
-/

set_option autoImplicit false

namespace Scriptlet

/-! What requests make and give back -/

namespace Request

def madeBy (fuel : Nat) (tree : Node) (machine : Machine) : List Closure :=
  (Plan.program tree.toplevel none).made (fun part => part.made fuel) fuel machine

def made (fuel : Nat) : Request → Machine → List Closure
  | evaluate tree scope, machine => (Task.node tree scope).made fuel machine
  | call callee arguments span, machine => (Task.call callee arguments span).made fuel machine
  | execute tree, machine => madeBy fuel tree machine
  | run source, machine =>
    match readProgram source with
    | .ok tree => madeBy fuel tree machine
    | .error _ => []

def Fits (made : List Closure) (machine : Machine) : Request → Prop
  | evaluate _ scope => scope < machine.store.size
  | call callee arguments _ => callee.IsFrom made ∧ ∀ value ∈ arguments, value.IsFrom made
  | execute _ => True
  | run _ => True

/-- Values that a host is given back. -/
inductive Gives (fuel : Nat) : Request → Machine → Value → Prop where
  | value {tree : Node} {scope : ScopeId} {machine after : Machine} {completion : Completion} :
    Evaluation.evaluate fuel tree scope machine = .done completion after →
      Gives fuel (.evaluate tree scope) machine completion.value
  | returned {tree : Node} {scope : ScopeId} {machine after : Machine} {completion : Completion}
    {value : Value} :
    Evaluation.evaluate fuel tree scope machine = .done completion after →
      completion.signal = .returned value → Gives fuel (.evaluate tree scope) machine value
  | called {callee value : Value} {arguments : List Value} {span : Span}
    {machine after : Machine} :
    Evaluation.call fuel callee arguments span machine = .done value after →
      Gives fuel (.call callee arguments span) machine value
  | executed {tree : Node} {machine after : Machine} {value : Value} :
    Evaluation.execute fuel tree machine = .done (some value) after →
      Gives fuel (.execute tree) machine value
  | ran {source : List Char} {machine after : Machine} {value : Value} :
    machine.run fuel source = .done (some value) after → Gives fuel (.run source) machine value

section

variable {fuel : Nat} {made : List Closure} {machine : Machine}

theorem records_task (fuel : Nat) {task : Task} (orderly : machine.IsOrderly made)
    (fits : Domain.made.Tasks (machine.history made) task) :
    machine.Records made (task.made fuel machine)
      (fun history result => Domain.made.Results history task result) (task.run fuel machine) :=
  (Task.records fuel orderly (Domain.tasks_alike fits)).imp fun _ _ meets =>
    ⟨meets.1, meets.2.1, (Domain.results_of_alike meets.2.2).2⟩

theorem plans_execute (orderly : machine.IsOrderly made) (tree : Node) :
    Domain.made.likeness.Plans
      (fun history => Option.Rel (Domain.made.likeness.Values history)) (machine.history made)
      (.program tree.toplevel none) (.program tree.toplevel none) :=
  Likeness.plans_program tree.toplevel ⟨rfl, orderly.linked.rooted⟩ .none

theorem records_execute (fuel : Nat) (orderly : machine.IsOrderly made) (tree : Node) :
    machine.Records made (madeBy fuel tree machine)
      (fun history result => ∀ value ∈ result, Domain.made.Values history value)
      (Evaluation.execute fuel tree machine) := by
  rw [Evaluation.execute_eq, ← Plan.run_program]
  apply (Plan.records (Task.records fuel) orderly (plans_execute orderly tree)).imp
  exact fun _ _ meets => ⟨meets.1, meets.2.1, (Domain.options_of_alike meets.2.2).2⟩

/-- However a request ends, what it has made is added to what had been made before. -/
theorem perform_isOrderly (fuel : Nat) {request : Request} (orderly : machine.IsOrderly made)
    (fits : request.Fits made machine) :
    (request.perform fuel machine).Meets
      (fun _ after => after.IsOrderly (made ++ request.made fuel machine))
      fun _ after => after.IsOrderly (made ++ request.made fuel machine) := by
  cases request with
  | evaluate tree scope =>
    rw [perform, Outcome.meets_settled, Outcome.meets_mapError]
    have fits : Domain.made.Tasks (machine.history made) (.node tree scope) := fits
    exact (records_task fuel orderly fits).imp fun _ _ meets => meets.1
  | call callee arguments span =>
    rw [perform, Outcome.meets_settled, Outcome.meets_mapError]
    have known := orderly.tasks_call fits.1 fits.2 span
    exact (records_task fuel orderly known).imp fun _ _ meets => meets.1
  | execute tree =>
    rw [perform, Outcome.meets_settled, Outcome.meets_mapError]
    exact (records_execute fuel orderly tree).imp fun _ _ meets => meets.1
  | run source =>
    rw [perform, Outcome.meets_settled, Machine.run, Request.made]
    cases readProgram source with
    | error error =>
      rw [List.append_nil]
      exact orderly
    | ok tree =>
      dsimp only
      rw [Outcome.meets_mapError]
      exact (records_execute fuel orderly tree).imp fun _ _ meets => meets.1

theorem Gives.isFrom {request : Request} {value : Value} (gives : request.Gives fuel machine value)
    (orderly : machine.IsOrderly made) (fits : request.Fits made machine) :
    value.IsFrom (made ++ request.made fuel machine) := by
  have executed {tree : Node} {after : Machine}
      (done : Evaluation.execute fuel tree machine = .done (some value) after) :
      value.IsFrom (made ++ madeBy fuel tree machine) := by
    have records := records_execute fuel orderly tree
    rw [done] at records
    exact Domain.isFrom_of_values (records.2.2 value rfl)
  have evaluated {tree : Node} {scope : ScopeId} {completion : Completion} {after : Machine}
      (inside : scope < machine.store.size)
      (done : Evaluation.evaluate fuel tree scope machine = .done completion after) :
      Domain.made.Completions
        (after.history (made ++ (Task.node tree scope).made fuel machine)) completion := by
    have fits : Domain.made.Tasks (machine.history made) (.node tree scope) := inside
    have records := records_task fuel orderly fits
    rw [Task.run, done] at records
    exact records.2.2
  cases gives with
  | value done => exact Domain.isFrom_of_values (evaluated fits done).value
  | returned done signal =>
    have known := (evaluated fits done).signal
    rw [signal] at known
    exact Domain.isFrom_of_values known
  | @called callee _ arguments span _ _ done =>
    have fits : Domain.made.Tasks (machine.history made) (.call callee arguments span) :=
      orderly.tasks_call fits.1 fits.2 span
    have records := records_task fuel orderly fits
    rw [Task.run, done] at records
    exact Domain.isFrom_of_values records.2.2
  | executed done => exact executed done
  | @ran source _ _ _ done =>
    rw [Request.made]
    rw [Machine.run] at done
    -- a source that cannot be read has nothing to give
    cases read : readProgram source with
    | error error =>
      rw [read] at done
      cases done
    | ok tree =>
      rw [read] at done
      dsimp only at done ⊢
      cases outcome : Evaluation.execute fuel tree machine with
      | done result reached =>
        rw [outcome] at done
        cases done
        exact executed outcome
      | failed error reached =>
        rw [outcome] at done
        cases done
      | cutOff =>
        rw [outcome] at done
        cases done

end

end Request

/-! On the way of a request -/

section

variable {fuel : Nat} {made : List Closure} {machine : Machine}

theorem Request.Reaches.isAmid {request : Request} {active : Nat} {config : Config}
    (reaches : request.Reaches fuel machine active config) (orderly : machine.IsOrderly made)
    (fits : request.Fits made machine) : config.IsAmid made (request.made fuel machine) := by
  obtain ⟨task, there, begins, within⟩ := reaches
  have executed {tree statement : Node} {there : Machine}
      (executes : Evaluation.Executes fuel Machine.root tree.toplevel machine statement there)
      (within : Config.Within ⟨fuel, .part, .node statement Machine.root, there⟩ active config) :
      config.IsAmid made (madeBy fuel tree machine) := by
    -- the statements before have made some, and this one makes a part of the others
    obtain ⟨before, reached, fits, part⟩ :=
      (executes.calls none).isAmid orderly (plans_execute orderly tree)
    exact (within.isAmid reached fits).of_part part
  cases begins with
  | @evaluate tree scope =>
    have inside : Domain.made.Tasks (machine.history made) (.node tree scope) := fits
    exact within.isAmid orderly (Domain.tasks_alike inside)
  | @call _ _ span =>
    have known := orderly.tasks_call fits.1 fits.2 span
    exact within.isAmid orderly (Domain.tasks_alike known)
  | execute executes => exact executed executes within
  | run read executes =>
    rw [Request.made, read]
    exact executed executes within

end

/-! Scopes that are opened -/

theorem Machine.sameLinks_kept : Kept fun before after => before.store.SameLinks after.store where
  refl machine := .refl machine.store
  trans _ _ _ := .trans
  effect change machine := by
    apply (change.meets_run machine).mono
    · intro result after done
      cases done with
      | assign => exact .modify _ _ _
      | define => exact .modify _ _ _
      | openScope => exact .addFrame _ _
      | _ => exact .refl _
    · intro error after fails
      cases fails <;> exact .refl _
  around role machine after same := by
    cases role <;> exact same

/-- Statements that a task runs in a scope of their own, and the scope around that. -/
def Task.enclosed? : Task → Option (List Node × ScopeId)
  | .node (.block _ nodes) scope => some (nodes, scope)
  | .call (.closure closure) _ _ => some (closure.body, closure.scope)
  | _ => none

theorem Plan.Calls.of_openScope {fuel : Nat} {α : Type} {outer : ScopeId}
    {next : ScopeId → Plan α} {machine there : Machine} {role : Role} {part : Task}
    (calls : (Plan.effect (.openScope outer) next).Calls fuel machine role part there) :
    there.store.outer? machine.store.size = some outer ∧
      ∃ reached, (next machine.store.size).Calls fuel reached role part there := by
  cases calls with
  | @afterEffect _ _ result _ reached _ _ _ done calls =>
    cases Effect.done_of_run done with
    | openScope =>
      constructor
      · -- the new scope is there from now on, within the one it was opened in
        obtain ⟨before, same, rfl⟩ := Machine.sameLinks_kept.calls calls
        have opened := same.outer machine.store.size (by simp)
        rw [Store.outer?_addFrame, if_pos rfl] at opened
        cases role <;> exact opened
      · exact ⟨_, calls⟩

/-- A block or a call runs its statements in a scope that has not been there, that no function has
been made in, and that is within the scope of the block or of the function. -/
def Config.RunsAfresh (made : List Closure) (config : Config) : Prop :=
  ∀ statements outer next, config.task.enclosed? = some (statements, outer) → config.Calls next →
    next.task = .statements statements config.machine.store.size ∧
    next.machine.store.outer? config.machine.store.size = some outer ∧
    ∀ closure ∈ made, closure.scope ≠ config.machine.store.size

/-- Every definition that is executed makes a function of its own, and that has its place among all of
them. -/
def Config.MakesInOrder (all : List Closure) (config : Config) : Prop :=
  ∀ name parameters body scope there,
    config.Performs (.makeClosure name parameters body scope) there →
      all[there.closures]? = some ⟨there.closures, name, parameters, body, scope⟩

theorem Config.Calls.enclosed {config next : Config} (calls : config.Calls next)
    {statements : List Node} {outer : ScopeId}
    (known : config.task.enclosed? = some (statements, outer)) :
    next.task = .statements statements config.machine.store.size ∧
      next.machine.store.outer? config.machine.store.size = some outer := by
  cases calls with
  | @intro fuel role inner task part machine there calls =>
    cases task with
    | node tree scope =>
      cases tree with
      | block span nodes =>
        cases known
        rw [Task.plan, Node.plan] at calls
        obtain ⟨within, reached, calls⟩ := calls.of_openScope
        cases calls with
        | here => exact ⟨rfl, within⟩
        | afterTask _ calls => cases calls
      | _ => cases known
    | call callee arguments span =>
      cases callee with
      | closure closure =>
        cases known
        rw [Task.plan] at calls
        -- the checks change nothing, and parameters are bound before the body is run
        cases calls with
        | afterEffect arity calls =>
          cases Effect.done_of_run arity
          cases calls with
          | afterEffect allowed calls =>
            cases Effect.done_of_run allowed
            obtain ⟨within, reached, calls⟩ := calls.of_openScope
            obtain ⟨reached, calls⟩ := calls.of_bindEach
            cases calls with
            | here => exact ⟨rfl, within⟩
            | afterTask _ calls =>
              dsimp only at calls
              split at calls <;> cases calls
      | _ => cases known
    | _ => cases known

theorem Request.Reaches.sameLinks {fuel : Nat} {request : Request} {machine : Machine}
    {active : Nat} {config : Config} (reaches : request.Reaches fuel machine active config) :
    machine.store.SameLinks config.machine.store := by
  obtain ⟨task, there, begins, within⟩ := reaches
  have started := Machine.sameLinks_kept.begins begins
  generalize outside : (⟨fuel, .part, task, there⟩ : Config) = start at within
  induction within with
  | start =>
    rw [← outside]
    exact started
  | @step _ config next _ calls ih =>
    cases calls with
    | @intro _ _ role _ _ _ _ calls =>
      obtain ⟨before, same, rfl⟩ := Machine.sameLinks_kept.calls calls
      cases role <;> exact ih.trans same

/-! Stages -/

structure Stage where
  made : List Closure
  machine : Machine

namespace Stage

def start (limit : Nat) (sink : Sink) (clock : Clock) : Stage :=
  ⟨[], .start limit sink clock⟩

/-- What a host does in between: it registers functions of its own, binds names to what it has been
given, clears scopes and opens new ones, changes its sink and clock, and makes requests, whether
they succeed or fail. -/
inductive Next : Stage → Stage → Prop where
  | register {stage : Stage} (name : String) (arity : Arity) {behaviour : Behaviour} :
    behaviour.IsConfined stage.made →
      Next stage ⟨stage.made, stage.machine.register name arity behaviour⟩
  | define {stage : Stage} (scope : ScopeId) (name : String) {value : Value} :
    value.IsFrom stage.made → Next stage
      ⟨stage.made,
        { stage.machine with store := stage.machine.store.define scope name value }⟩
  | clear {stage : Stage} (scope : ScopeId) :
    Next stage ⟨stage.made, { stage.machine with store := stage.machine.store.clear scope }⟩
  | openScope {stage : Stage} {outer : ScopeId} : outer < stage.machine.store.size → Next stage
    ⟨stage.made,
      { stage.machine with store := (stage.machine.store.addFrame (some outer)).2 }⟩
  | host {stage : Stage} (host : Host) :
    Next stage ⟨stage.made, { stage.machine with host := host }⟩
  | done {stage : Stage} {after : Machine} (fuel : Nat) {request : Request} :
    request.Fits stage.made stage.machine →
      request.perform fuel stage.machine = .done () after →
        Next stage ⟨stage.made ++ request.made fuel stage.machine, after⟩
  | failed {stage : Stage} {after : Machine} (fuel : Nat) {request : Request} {failure : Failure} :
    request.Fits stage.made stage.machine →
      request.perform fuel stage.machine = .failed failure after →
        Next stage ⟨stage.made ++ request.made fuel stage.machine, after⟩

def Reached (stage : Stage) : Prop :=
  ∃ limit sink clock, Relation.ReflTransGen Next (start limit sink clock) stage

variable {stage next later : Stage}

theorem Next.isOrderly (step : Next stage next) (orderly : stage.machine.IsOrderly stage.made) :
    next.machine.IsOrderly next.made := by
  cases step with
  | register name arity confined => exact orderly.register name arity confined
  | define scope name known => exact orderly.define scope name known
  | clear scope => exact orderly.modify scope fun _ _ => by simp [Bindings.All]
  | openScope inside => exact orderly.addFrame inside
  | host host => exact orderly.of_eq rfl rfl rfl
  | done fuel fits done =>
    have meets := Request.perform_isOrderly fuel orderly fits
    rw [done] at meets
    exact meets
  | failed fuel fits failed =>
    have meets := Request.perform_isOrderly fuel orderly fits
    rw [failed] at meets
    exact meets

theorem Next.sameLinks (step : Next stage next) :
    stage.machine.store.SameLinks next.machine.store := by
  cases step with
  | register => exact .modify _ _ _
  | define => exact .modify _ _ _
  | clear scope => exact .modify _ scope fun _ => []
  | openScope => exact .addFrame _ _
  | host => exact .refl _
  | @done _ fuel request _ done =>
    have meets := Machine.sameLinks_kept.request fuel request stage.machine
    rw [done] at meets
    exact meets
  | @failed _ fuel request _ _ failed =>
    have meets := Machine.sameLinks_kept.request fuel request stage.machine
    rw [failed] at meets
    exact meets

theorem sameLinks_of_later (after : Relation.ReflTransGen Next stage later) :
    stage.machine.store.SameLinks later.machine.store := by
  induction after with
  | refl => exact .refl _
  | tail _ step ih => exact ih.trans step.sameLinks

theorem Reached.isOrderly (reached : stage.Reached) : stage.machine.IsOrderly stage.made := by
  obtain ⟨limit, sink, clock, steps⟩ := reached
  induction steps with
  | refl => exact Machine.start_isOrderly limit sink clock
  | tail _ step ih => exact step.isOrderly ih

/-- Scopes are linked to scopes that were made before them, and functions are told apart by when they
were made. At every stage the way outward from any scope ends in the root, the scope around a scope
is the same ever after, and functions that are bound to names have been made in scopes that are
there. Two functions are the same if they were made at the same time. All this is so on the way of a
request, too: what is evaluated there is evaluated in scopes that are there, with functions that have
been made, and every block and every call runs in a new scope of its own. -/
theorem Reached.scopes_and_functions_are_told_apart (reached : stage.Reached) :
    stage.machine.store.IsLinked ∧
    (∀ scope < stage.machine.store.size, ∃ chain, stage.machine.store.Walks scope chain) ∧
    (∀ later, Relation.ReflTransGen Next stage later →
      stage.machine.store.SameLinks later.machine.store) ∧
    (∀ scope, ∀ entry ∈ stage.machine.store.bindingsAt scope, ∀ closure,
      entry.2 = .closure closure →
        closure ∈ stage.made ∧ closure.scope < stage.machine.store.size) ∧
    (∀ (first second : Nat) (a b : Closure),
      stage.made[first]? = some a → stage.made[second]? = some b →
        ((Value.closure a).same (.closure b) = true ↔ first = second)) ∧
    ∀ (fuel : Nat) (request : Request), request.Fits stage.made stage.machine →
      (∀ value, request.Gives fuel stage.machine value →
        value.IsFrom (stage.made ++ request.made fuel stage.machine)) ∧
      ∀ active config, request.Reaches fuel stage.machine active config → ∃ made,
        made <+: stage.made ++ request.made fuel stage.machine ∧
        config.machine.IsOrderly made ∧
        Domain.made.Tasks (config.machine.history made) config.task ∧
        config.RunsAfresh made ∧
        config.MakesInOrder (stage.made ++ request.made fuel stage.machine) ∧
        stage.machine.store.SameLinks config.machine.store := by
  have orderly := reached.isOrderly
  refine ⟨orderly.linked, fun scope inside => orderly.linked.walks inside,
    fun later after => sameLinks_of_later after, ?_, ?_, fun fuel request fits => ⟨?_, ?_⟩⟩
  · intro scope entry member closure same
    have known := orderly.bound.of_mem_bindingsAt member
    rw [same] at known
    exact ⟨known, orderly.captured closure known⟩
  · intro first second a b isFirst isSecond
    rw [Value.same, beq_iff_eq, orderly.identity first a isFirst,
      orderly.identity second b isSecond]
  · exact fun value gives => gives.isFrom orderly fits
  · intro active config reaches
    obtain ⟨before, there, inside, part⟩ := reaches.isAmid orderly fits
    -- what has been made by then is where all that the request makes begins
    have upTo : stage.made ++ before <+: stage.made ++ request.made fuel stage.machine :=
      (List.prefix_append_right_inj stage.made).mpr ((List.prefix_append before _).trans part)
    refine ⟨_, upTo, there, Domain.tasks_of_alike inside, ?_, ?_, reaches.sameLinks⟩
    · intro statements outer next known calls
      obtain ⟨runs, within⟩ := calls.enclosed known
      exact ⟨runs, within, fun closure member => Nat.ne_of_lt (there.captured closure member)⟩
    · intro name parameters body scope last performs
      have makes := performs.makes there inside
      rw [List.append_assoc] at makes
      -- a place among the functions made by then is the same place among all of them
      obtain ⟨rest, same⟩ := (List.prefix_append_right_inj stage.made).mpr part
      have isPlace := (List.getElem?_eq_some_iff.mp makes).1
      rw [← same, List.getElem?_append_left isPlace]
      exact makes

/-- A definition in the root scope makes one function and binds it. -/
theorem next_definition {stage : Stage} (orderly : stage.machine.IsOrderly stage.made)
    (span : Span) (name : String) (parameters : List String) (body : List Node) :
    let made : Closure := ⟨stage.machine.closures, name, parameters, body, Machine.root⟩
    Next stage ⟨stage.made ++ [made],
      { stage.machine with
        store := stage.machine.store.define Machine.root name (.closure made)
        closures := stage.machine.closures + 1 }⟩ := by
  let request : Request := .evaluate (.function span name parameters body) Machine.root
  have fits : request.Fits stage.made stage.machine := orderly.linked.rooted
  apply Next.done 1 fits
  rw [Request.perform, Node.evaluate_eq_plan]
  rfl

theorem definitions_are_told_apart :
    ∃ (stage : Stage) (first second : Closure), stage.Reached ∧ stage.made = [first, second] ∧
      first.name = second.name ∧ first.scope = second.scope ∧
      (∃ chain, stage.machine.store.Walks Machine.root chain) ∧
      (Value.closure first).same (.closure second) = false := by
  let begin := start 1 .unlimited ⟨fun _ => some 0⟩
  have orderly : begin.machine.IsOrderly begin.made := Machine.start_isOrderly _ _ _
  have once := next_definition orderly (Span.point 0) "made" [] []
  have twice := next_definition (once.isOrderly orderly) (Span.point 0) "made" [] []
  have reached : Stage.Reached _ :=
    ⟨1, .unlimited, ⟨fun _ => some 0⟩, (Relation.ReflTransGen.single once).tail twice⟩
  obtain ⟨linked, walks, _, _, same, _⟩ := reached.scopes_and_functions_are_told_apart
  have different : ¬0 = 1 := by decide
  exact ⟨_, _, _, reached, rfl, rfl, rfl, walks Machine.root linked.rooted,
    Bool.eq_false_iff.mpr fun equal => different ((same 0 1 _ _ rfl rfl).mp equal)⟩

end Stage

end Scriptlet
