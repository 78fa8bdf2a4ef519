import Scriptlet.Machine.Session
import Scriptlet.Proofs.Machine.Preservation

/-! What a host asks of a machine, and what is evaluated then. -/

set_option autoImplicit false

namespace Scriptlet

/-! Outcomes without their values -/

/-- How an outcome leaves a machine, its value aside. -/
def Outcome.settled {ε σ α : Type} : Outcome ε σ α → Outcome ε σ Unit
  | done _ state => done () state
  | failed error state => failed error state
  | cutOff => cutOff

namespace Outcome

theorem meets_settled {ε σ α : Type} {outcome : Outcome ε σ α} {good : σ → Prop}
    {bad : ε → σ → Prop} :
    outcome.settled.Meets (fun _ => good) bad ↔ outcome.Meets (fun _ => good) bad := by
  cases outcome <;> rfl

theorem meets_mapError {ε ε' σ α : Type} {outcome : Outcome ε σ α} {change : ε → ε'}
    {good : α → σ → Prop} {bad : ε' → σ → Prop} :
    (outcome.mapError change).Meets good bad ↔
      outcome.Meets good fun error => bad (change error) := by
  cases outcome <;> rfl

theorem Pairs.mapError {ε ε' σ α β : Type} {good : α → β → σ → σ → Prop} {bad : σ → σ → Prop}
    {first : Outcome ε σ α} {second : Outcome ε σ β}
    (pairs : first.Pairs good bad (fun _ => False) second) (change : ε → ε') :
    (first.mapError change).Pairs good bad (fun _ => False) (second.mapError change) := by
  cases first with
  | done value state =>
    obtain ⟨other, reached, rfl, holds⟩ := pairs
    exact ⟨other, reached, rfl, holds⟩
  | failed error state =>
    obtain ⟨reached, rfl, holds⟩ := pairs.resolve_left id
    exact .inr ⟨reached, rfl, holds⟩
  | cutOff =>
    rw [show second = .cutOff from pairs]
    rfl

theorem of_settled_failed {ε σ α : Type} {outcome : Outcome ε σ α} {error : ε} {state : σ}
    (failed : outcome.settled = .failed error state) : outcome = .failed error state := by
  cases outcome <;> cases failed
  rfl

theorem of_mapError_runtime {σ α : Type} {outcome : Outcome RuntimeError σ α}
    {error : RuntimeError} {state : σ}
    (failed : outcome.mapError Failure.runtime = .failed (.runtime error) state) :
    outcome = .failed error state := by
  cases outcome <;> cases failed
  rfl

end Outcome

/-! Statements in order -/

/-- The statements that running a tree is running one after the other. -/
def Node.toplevel : Node → List Node
  | .program _ statements => statements
  | other => [other]

theorem Evaluation.execute_eq (fuel : Nat) (tree : Node) :
    execute fuel tree = executeEach fuel Machine.root tree.toplevel none := by
  cases tree <;> rfl

section

variable {fuel : Nat} {holds : Machine → Prop} {machine : Machine}

theorem Evaluation.meets_executeEach {scope : ScopeId} {statements : List Node}
    (keeps : ∀ statement ∈ statements, ∀ machine, holds machine →
      (evaluate fuel statement scope machine).Meets (fun _ => holds) fun _ => holds)
    (last : Option Value) (start : holds machine) :
    (executeEach fuel scope statements last machine).Meets (fun _ => holds) fun _ => holds := by
  induction statements generalizing last machine with
  | nil => exact start
  | cons statement rest ih =>
    obtain ⟨keepsFirst, keepsRest⟩ := List.forall_mem_cons.mp keeps
    rw [executeEach]
    refine Action.meets_bind (keepsFirst machine start) fun completion reached after => ?_
    cases completion.signal with
    | returned value => exact after
    | normal => exact ih keepsRest _ after
    | broken => exact ih keepsRest _ after
    | continued => exact ih keepsRest _ after

theorem Evaluation.meets_execute {tree : Node}
    (keeps : ∀ statement ∈ tree.toplevel, ∀ machine, holds machine →
      (evaluate fuel statement Machine.root machine).Meets (fun _ => holds) fun _ => holds)
    (start : holds machine) :
    (execute fuel tree machine).Meets (fun _ => holds) fun _ => holds := by
  rw [execute_eq]
  exact meets_executeEach keeps none start

theorem Machine.meets_run {source : List Char}
    (keeps : ∀ tree, readProgram source = .ok tree → ∀ statement ∈ tree.toplevel, ∀ machine,
      holds machine →
        (Evaluation.evaluate fuel statement root machine).Meets (fun _ => holds) fun _ => holds)
    (start : holds machine) :
    (machine.run fuel source).Meets (fun _ => holds) fun _ => holds := by
  rw [Machine.run]
  split
  · exact start
  · next tree read =>
    rw [Outcome.meets_mapError]
    exact Evaluation.meets_execute (keeps tree read) start

end

/-- Statements in order come to one of them in a machine. -/
inductive Evaluation.Executes (fuel : Nat) (scope : ScopeId) :
    List Node → Machine → Node → Machine → Prop where
  | here {statement : Node} {rest : List Node} {machine : Machine} :
    Executes fuel scope (statement :: rest) machine statement machine
  | later {first statement : Node} {rest : List Node} {machine reached there : Machine}
    {completion : Completion} :
    evaluate fuel first scope machine = .done completion reached →
      (∀ value, completion.signal ≠ .returned value) →
      Executes fuel scope rest reached statement there →
      Executes fuel scope (first :: rest) machine statement there

theorem Evaluation.executeEach_failed {fuel : Nat} {scope : ScopeId} {statements : List Node}
    {last : Option Value} {machine after : Machine} {error : RuntimeError}
    (failed : executeEach fuel scope statements last machine = .failed error after) :
    ∃ statement there reached, Executes fuel scope statements machine statement there ∧
      evaluate fuel statement scope there = .failed error reached := by
  induction statements generalizing last machine with
  | nil => cases failed
  | cons first rest ih =>
    rw [executeEach] at failed
    rcases Action.bind_eq_failed_iff.mp failed with own | ⟨completion, reached, done, later⟩
    · exact ⟨first, machine, after, .here, own⟩
    · cases signal : completion.signal with
      | returned value =>
        rw [signal] at later
        cases later
      | _ =>
        rw [signal] at later
        obtain ⟨statement, there, last, executes, own⟩ := ih later
        exact ⟨statement, there, last, .later done (by simp [signal]) executes, own⟩

section

variable {fuel : Nat} {statements : List Node} {statement : Node} {machine there after : Machine}

theorem Evaluation.Executes.failed {scope : ScopeId} {error : RuntimeError}
    (executes : Executes fuel scope statements machine statement there)
    (failed : evaluate fuel statement scope there = .failed error after) (last : Option Value) :
    executeEach fuel scope statements last machine = .failed error after := by
  induction executes generalizing last with
  | here =>
    rw [executeEach]
    exact Action.bind_eq_failed_iff.mpr (.inl failed)
  | @later _ _ _ _ _ _ completion done goesOn _ ih =>
    rw [executeEach]
    refine Action.bind_eq_failed_iff.mpr (.inr ⟨_, _, done, ?_⟩)
    cases signal : completion.signal with
    | returned value => exact absurd signal (goesOn value)
    | _ => exact ih failed _

theorem Evaluation.Executes.calls
    (executes : Executes fuel Machine.root statements machine statement there)
    (last : Option Value) :
    (Plan.program statements last).Calls fuel machine .part (.node statement Machine.root)
      there := by
  induction executes generalizing last with
  | here => exact .here
  | later done goesOn _ ih =>
    refine .afterTask ((congrFun (Role.around_part _) _).trans done) ?_
    split
    · next value signal => exact absurd signal (goesOn value)
    · exact ih _

theorem Plan.Calls.executes {last : Option Value} {role : Role} {part : Task}
    (calls : (program statements last).Calls fuel machine role part there) :
    ∃ statement, role = .part ∧ part = .node statement Machine.root ∧
      Evaluation.Executes fuel Machine.root statements machine statement there := by
  induction statements generalizing last machine with
  | nil => cases calls
  | cons first rest ih =>
    cases calls with
    | here => exact ⟨first, rfl, rfl, .here⟩
    | @afterTask _ _ _ completion _ _ _ _ _ done later =>
      rw [Role.around_part] at done
      dsimp only at later
      cases signal : completion.signal with
      | returned value =>
        rw [signal] at later
        cases later
      | _ =>
        rw [signal] at later
        obtain ⟨statement, rfl, rfl, executes⟩ := ih later
        exact ⟨statement, rfl, rfl, .later done (by simp [signal]) executes⟩

end

/-! Requests -/

/-- What a host asks a machine to evaluate. -/
inductive Request where
  | evaluate (tree : Node) (scope : ScopeId)
  | call (callee : Value) (arguments : List Value) (span : Span)
  | execute (tree : Node)
  | run (source : List Char)

def Request.perform (fuel : Nat) (request : Request) (machine : Machine) :
    Outcome Failure Machine Unit :=
  match request with
  | evaluate tree scope =>
    ((Evaluation.evaluate fuel tree scope machine).mapError .runtime).settled
  | call callee arguments span =>
    ((Evaluation.call fuel callee arguments span machine).mapError .runtime).settled
  | execute tree => ((Evaluation.execute fuel tree machine).mapError .runtime).settled
  | run source => (machine.run fuel source).settled

inductive Request.Begins (fuel : Nat) : Request → Machine → Task → Machine → Prop where
  | evaluate {tree : Node} {scope : ScopeId} {machine : Machine} :
    Begins fuel (.evaluate tree scope) machine (.node tree scope) machine
  | call {callee : Value} {arguments : List Value} {span : Span} {machine : Machine} :
    Begins fuel (.call callee arguments span) machine (.call callee arguments span) machine
  | execute {tree statement : Node} {machine there : Machine} :
    Evaluation.Executes fuel Machine.root tree.toplevel machine statement there →
      Begins fuel (.execute tree) machine (.node statement Machine.root) there
  | run {source : List Char} {tree statement : Node} {machine there : Machine} :
    readProgram source = .ok tree →
      Evaluation.Executes fuel Machine.root tree.toplevel machine statement there →
      Begins fuel (.run source) machine (.node statement Machine.root) there

def Request.Reaches (fuel : Nat) (request : Request) (machine : Machine) (active : Nat)
    (config : Config) : Prop :=
  ∃ task there, Begins fuel request machine task there ∧
    Config.Within ⟨fuel, .part, task, there⟩ active config

/-- A request that fails while it runs fails in something that it evaluates. -/
theorem Request.failed_cases {fuel : Nat} {request : Request} {machine after : Machine}
    {error : RuntimeError}
    (failed : request.perform fuel machine = .failed (.runtime error) after) :
    ∃ task there reached, Begins fuel request machine task there ∧
      task.run fuel there = .failed error reached := by
  -- programs and sources are run alike, once a source has been read
  have executed {tree : Node} (own : Evaluation.execute fuel tree machine = .failed error after) :
      ∃ statement there reached,
        Evaluation.Executes fuel Machine.root tree.toplevel machine statement there ∧
        Evaluation.evaluate fuel statement Machine.root there = .failed error reached := by
    rw [Evaluation.execute_eq] at own
    exact Evaluation.executeEach_failed own
  cases request with
  | evaluate tree scope =>
    have own := Outcome.of_mapError_runtime (Outcome.of_settled_failed failed)
    exact ⟨.node tree scope, machine, after, .evaluate, own⟩
  | call callee arguments span =>
    have own := Outcome.of_mapError_runtime (Outcome.of_settled_failed failed)
    exact ⟨.call callee arguments span, machine, after, .call, own⟩
  | execute tree =>
    have own := Outcome.of_mapError_runtime (Outcome.of_settled_failed failed)
    obtain ⟨statement, there, reached, executes, failedThere⟩ := executed own
    exact ⟨_, there, reached, .execute executes, failedThere⟩
  | run source =>
    have own := Outcome.of_settled_failed failed
    rw [Machine.run] at own
    cases read : readProgram source with
    | error error =>
      rw [read] at own
      cases error <;> cases own
    | ok tree =>
      rw [read] at own
      obtain ⟨statement, there, reached, executes, failedThere⟩ :=
        executed (Outcome.of_mapError_runtime own)
      exact ⟨_, there, reached, .run read executes, failedThere⟩

theorem Request.Begins.failed {fuel : Nat} {request : Request} {machine there after : Machine}
    {task : Task} {error : RuntimeError} (begins : request.Begins fuel machine task there)
    (failed : task.run fuel there = .failed error after) :
    request.perform fuel machine = .failed (.runtime error) after := by
  have executed {tree statement : Node}
      (executes : Evaluation.Executes fuel Machine.root tree.toplevel machine statement there)
      (failed : Evaluation.evaluate fuel statement Machine.root there = .failed error after) :
      Evaluation.execute fuel tree machine = .failed error after := by
    rw [Evaluation.execute_eq]
    exact executes.failed failed none
  cases begins with
  | evaluate | call =>
    rw [Task.run] at failed
    rw [perform, failed]
    rfl
  | execute executes =>
    rw [perform, executed executes failed]
    rfl
  | run read executes =>
    rw [perform, Machine.run, read]
    dsimp only
    rw [executed executes failed]
    rfl

/-! What every effect keeps, every request keeps -/

namespace Kept

variable {R : Machine → Machine → Prop} {fuel : Nat}

theorem request (kept : Kept R) (fuel : Nat) (request : Request) (machine : Machine) :
    (request.perform fuel machine).Meets (fun _ => R machine) fun _ => R machine := by
  have evaluates (tree : Node) (scope : ScopeId) (there : Machine) (before : R machine there) :
      (Evaluation.evaluate fuel tree scope there).Meets (fun _ => R machine)
        fun _ => R machine :=
    (kept.run fuel (.node tree scope) there).mono (fun _ _ => kept.trans _ _ _ before)
      fun _ _ => kept.trans _ _ _ before
  have same := kept.refl machine
  cases request with
  | evaluate tree scope =>
    rw [Request.perform, Outcome.meets_settled, Outcome.meets_mapError]
    exact evaluates tree scope machine same
  | call callee arguments span =>
    rw [Request.perform, Outcome.meets_settled, Outcome.meets_mapError]
    exact kept.run fuel (.call callee arguments span) machine
  | execute tree =>
    rw [Request.perform, Outcome.meets_settled, Outcome.meets_mapError]
    exact Evaluation.meets_execute (fun statement _ => evaluates statement _) same
  | run source =>
    rw [Request.perform, Outcome.meets_settled]
    exact Machine.meets_run (fun _ _ statement _ => evaluates statement _) same

theorem executes (kept : Kept R) {scope : ScopeId} {statements : List Node} {statement : Node}
    {machine there : Machine}
    (executes : Evaluation.Executes fuel scope statements machine statement there) :
    R machine there := by
  induction executes with
  | here => exact kept.refl _
  | @later first _ _ machine _ _ _ done _ _ ih =>
    have meets := kept.run fuel (.node first scope) machine
    rw [Task.run, done] at meets
    exact kept.trans _ _ _ meets ih

theorem begins (kept : Kept R) {request : Request} {machine there : Machine} {task : Task}
    (begins : request.Begins fuel machine task there) : R machine there := by
  cases begins with
  | evaluate => exact kept.refl machine
  | call => exact kept.refl machine
  | execute executes => exact kept.executes executes
  | run _ executes => exact kept.executes executes

end Kept

end Scriptlet
