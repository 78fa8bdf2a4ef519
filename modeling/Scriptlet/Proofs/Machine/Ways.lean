import Scriptlet.Proofs.Machine.Eventual
import Scriptlet.Proofs.Machine.Reached

/-! The ways of running a program: as a whole for its result, as a node, and statement by statement.

A run of the whole goes on after every statement that does not return, while a node that holds
statements is left with the first that does not come to its end. Nothing tells the two apart, because
statements outside of loops either come to their end or return.
-/

set_option autoImplicit false

namespace Scriptlet

/-! What stands outside of loops -/

def Task.Flows : (task : Task) → task.Result → Prop
  | node tree _, completion => Runnable false tree → completion.signal.EndsCall
  | statements nodes _, completion =>
    (∀ node ∈ nodes, Runnable false node) → completion.signal.EndsCall
  | rounds .., completion => completion.signal.EndsCall
  | operands .., _ => True
  | call .., _ => True

theorem Task.Yields.flows {task : Task} {result : task.Result}
    (yields : task.Yields ⟨fun _ _ => True, Task.Flows⟩ result) : task.Flows result := by
  cases yields with
  | node => exact fun _ => trivial
  | block given => exact fun runnable => given runnable.block
  | thenBranch given => exact fun runnable => given runnable.branch.2.1
  | elseBranch given => exact fun runnable => given (runnable.branch.2.2 _ rfl)
  | loop given => exact fun _ => given
  | program => exact fun runnable => absurd runnable Runnable.not_program
  | returnsNil => exact fun _ => trivial
  | returns => exact fun _ => trivial
  | breaks =>
    intro runnable
    cases runnable.breaking
  | continues =>
    intro runnable
    cases runnable.continuing
  | noStatements => exact fun _ => trivial
  | statements given => exact fun runnable => given (List.forall_mem_cons.mp runnable).2
  | early given => exact fun runnable => given (List.forall_mem_cons.mp runnable).1
  | again given => exact given
  | _ => trivial

/-- A statement outside of loops comes to its end or returns, in any machine. -/
theorem Runnable.ends {statement : Node} (runnable : Runnable false statement) (scope : ScopeId)
    (machine : Machine) :
    ((Task.node statement scope).eventual machine).Meets
      (fun completion _ => completion.signal = .normal ∨
        ∃ value, completion.signal = .returned value) fun _ _ => True := by
  have sound : (Contract.ofResults Task.Flows).Sound := Contract.ofResults_sound Task.Yields.flows
  have meets : ((Task.node statement scope).eventual machine).Meets
      (fun completion _ => Task.Flows (.node statement scope) completion ∧ True) fun _ _ => True :=
    sound.eventual .part (.node statement scope) trivial trivial
  refine meets.imp fun completion _ meets => ?_
  have ends : completion.signal.EndsCall := meets.1 runnable
  cases signal : completion.signal with
  | normal => exact .inl rfl
  | returned value => exact .inr ⟨value, rfl⟩
  | broken | continued =>
    rw [signal] at ends
    cases ends

/-! Three ways -/

namespace Evaluation

/-- Each statement by itself in the root scope, up to one that returns. -/
def inTurn (fuel : Nat) : List Node → Evaluation (List Completion)
  | [] => pure []
  | statement :: rest => do
    let completion ← evaluate fuel statement Machine.root
    match completion.signal with
    | .returned _ => pure [completion]
    | _ => do
      let later ← inTurn fuel rest
      pure (completion :: later)

/-- The value of the last statement, if that is an expression. Without statements it is `other`. -/
def lastValue (other : Option Value) (statements : List Node) (completions : List Completion) :
    Option Value :=
  match statements.getLast?, completions.getLast? with
  | some statement, some completion =>
    if statement.isExpression then some completion.value else none
  | _, _ => other

/-- The three ways of running statements end alike: the statements in turn, with how each of them was
left; for the result, which is `other` without statements; and as a node. -/
inductive Agree (other : Option Value) (statements : List Node) :
    Outcome RuntimeError Machine (List Completion) → Outcome RuntimeError Machine (Option Value) →
    Outcome RuntimeError Machine Completion → Prop where
  | finished {completions : List Completion} {machine : Machine} :
    completions.length = statements.length →
      (∀ completion ∈ completions, completion.signal = .normal) →
      Agree other statements (.done completions machine)
        (.done (lastValue other statements completions) machine) (.done ⟨.nil, .normal⟩ machine)
  | returned {before : List Completion} {last : Completion} {value : Value} {machine : Machine} :
    before.length < statements.length →
      (∀ completion ∈ before, completion.signal = .normal) → last.signal = .returned value →
      Agree other statements (.done (before ++ [last]) machine) (.done (some value) machine)
        (.done ⟨.nil, .returned value⟩ machine)
  | failed {error : RuntimeError} {machine : Machine} :
    Agree other statements (.failed error machine) (.failed error machine) (.failed error machine)
  | cutOff : Agree other statements .cutOff .cutOff .cutOff

theorem lastValue_cons (other : Option Value) (statement : Node) (completion : Completion)
    {statements : List Node} {completions : List Completion}
    (lengths : completions.length = statements.length) :
    lastValue (if statement.isExpression then some completion.value else none) statements
        completions =
      lastValue other (statement :: statements) (completion :: completions) := by
  cases statements with
  | nil =>
    rw [List.eq_nil_of_length_eq_zero lengths]
    rfl
  | cons next statements =>
    cases completions with
    | nil => cases lengths
    | cons last completions =>
      rw [lastValue, lastValue, List.getLast?_cons_cons, List.getLast?_cons_cons,
        List.getLast?_eq_some_getLast (List.cons_ne_nil next statements),
        List.getLast?_eq_some_getLast (List.cons_ne_nil last completions)]

theorem Agree.cons {other : Option Value} {statement : Node} {statements : List Node}
    {completion : Completion} (normal : completion.signal = .normal)
    {later : Evaluation (List Completion)} {machine : Machine}
    {executed : Outcome RuntimeError Machine (Option Value)}
    {evaluated : Outcome RuntimeError Machine Completion}
    (agree : Agree (if statement.isExpression then some completion.value else none) statements
      (later machine) executed evaluated) :
    Agree other (statement :: statements)
      ((later >>= fun completions => pure (completion :: completions)) machine) executed
      evaluated := by
  rw [Action.bind_apply]
  revert agree
  generalize later machine = outcome
  intro agree
  cases agree with
  | finished lengths normals =>
    rw [lastValue_cons other statement completion lengths]
    exact .finished (congrArg (· + 1) lengths) (List.forall_mem_cons.mpr ⟨normal, normals⟩)
  | @returned before last value there lengths normals returns =>
    exact @Agree.returned other (statement :: statements) (completion :: before) last value there
      (Nat.succ_lt_succ lengths) (List.forall_mem_cons.mpr ⟨normal, normals⟩) returns
  | failed => exact .failed
  | cutOff => exact .cutOff

theorem rises_inTurn (statements : List Node) :
    Action.Rises fun fuel => inTurn fuel statements := by
  induction statements with
  | nil => exact Action.rises_const _
  | cons statement rest ih =>
    refine (Task.node statement Machine.root).rises.bind fun completion => ?_
    cases completion.signal with
    | returned => exact Action.rises_const _
    | _ => exact ih.bind fun later => Action.rises_const _

theorem eventually_inTurn_cons (statement : Node) (rest : List Node) :
    (Action.eventually fun fuel => inTurn fuel (statement :: rest)) =
      (Task.node statement Machine.root).eventual >>= fun completion =>
        match completion.signal with
        | .returned _ => pure [completion]
        | _ => (Action.eventually fun fuel => inTurn fuel rest) >>= fun later =>
          pure (completion :: later) := by
  have later (completion : Completion) : Action.Rises fun fuel => inTurn fuel rest >>= fun later =>
      (pure (completion :: later) : Evaluation (List Completion)) :=
    (rises_inTurn rest).bind fun later => Action.rises_const _
  have all (completion : Completion) : Action.Rises fun fuel =>
      match completion.signal with
      | .returned _ => (pure [completion] : Evaluation (List Completion))
      | _ => inTurn fuel rest >>= fun later => pure (completion :: later) := by
    cases completion.signal with
    | returned => exact Action.rises_const _
    | _ => exact later completion
  refine (Action.eventually_bind (Task.node statement Machine.root).rises all).trans ?_
  refine bind_congr fun completion => ?_
  have goesOn := Action.eventually_bind (rises_inTurn rest) fun later =>
    Action.rises_const (pure (completion :: later) : Evaluation (List Completion))
  simp only [Action.eventually_const] at goesOn
  cases completion.signal with
  | returned => exact Action.eventually_const _
  | _ => exact goesOn

theorem agree_eventual {statements : List Node}
    (runnable : ∀ statement ∈ statements, Runnable false statement) (other : Option Value)
    (machine : Machine) :
    Agree other statements ((Action.eventually fun fuel => inTurn fuel statements) machine)
      ((Plan.program statements other).eventual machine)
      ((Task.statements statements Machine.root).eventual machine) := by
  induction statements generalizing other machine with
  | nil =>
    rw [Task.eventual_statements_nil]
    have nothing : (Action.eventually fun fuel => inTurn fuel []) = pure [] :=
      Action.eventually_const _
    rw [nothing]
    exact .finished rfl (List.forall_mem_nil _)
  | cons statement rest ih =>
    obtain ⟨runnableFirst, runnableRest⟩ := List.forall_mem_cons.mp runnable
    have ends := runnableFirst.ends Machine.root machine
    rw [eventually_inTurn_cons, Plan.program, Plan.eventual_part, Task.eventual_statements_cons,
      Action.bind_apply, Action.bind_apply, Action.bind_apply]
    cases outcome : (Task.node statement Machine.root).eventual machine with
    | failed error reached => exact .failed
    | cutOff => exact .cutOff
    | done completion reached =>
      rw [outcome] at ends
      dsimp only
      -- outside of loops a statement ends in no other way
      rcases ends with normal | ⟨value, returned⟩
      · rw [normal]
        exact .cons normal (ih runnableRest _ reached)
      · rw [returned]
        exact @Agree.returned other (statement :: rest) [] completion value reached
          (Nat.zero_lt_succ _) (List.forall_mem_nil _) returned

theorem settled_execute {statement : Node} (runnable : Runnable false statement) (fuel : Nat)
    (machine : Machine) :
    (execute fuel statement machine).settled =
      (evaluate fuel statement Machine.root machine).settled := by
  have alone : statement.toplevel = [statement] := by
    cases statement with
    | program => exact absurd runnable Runnable.not_program
    | _ => rfl
  rw [execute_eq, alone, executeEach, Action.bind_apply]
  cases evaluate fuel statement Machine.root machine with
  | done completion reached => cases signal : completion.signal <;> simp only [signal] <;> rfl
  | failed error reached => rfl
  | cutOff => rfl

/-- The ways of running a program agree, in any machine. For its result, as a node in the root scope,
and statement by statement up to the first that fails or returns, it comes to the same machine and to
the same error; no way ends unless all do. The result is what the program returns, or else the value of
its last statement if that is an expression. -/
theorem ways_of_running_agree {source : List Char} {tree : Node}
    (read : readProgram source = .ok tree) (machine : Machine) :
    (∃ turns executed evaluated,
      Action.Settles (fun fuel => inTurn fuel tree.toplevel) machine turns ∧
      Action.Settles (fun fuel => execute fuel tree) machine executed ∧
      Action.Settles (fun fuel => evaluate fuel tree Machine.root) machine evaluated ∧
      Agree none tree.toplevel turns executed evaluated) ∧
    ∀ statement ∈ tree.toplevel, ∀ fuel there,
      (execute fuel statement there).settled =
        (evaluate fuel statement Machine.root there).settled := by
  have runnable : ∀ statement ∈ tree.toplevel, Runnable false statement := fun statement member =>
    .statement (WellFormed.statement_of_readProgram read member)
  refine ⟨?_, fun statement member => settled_execute (runnable statement member)⟩
  cases WellFormed.Program.of_readProgram read with
  | @program span statements _ =>
    have turns := (rises_inTurn statements).settles machine
    -- every number of steps large enough tells the same, so each way settles on an outcome
    have executed : Action.Settles (fun fuel => execute fuel (.program span statements)) machine
        ((Plan.program statements none).eventual machine) := by
      have settles := (Plan.program statements none).rises.settles machine
      rw [Plan.eventually_run] at settles
      simp only [Plan.run_program] at settles
      exact settles
    have evaluated : Action.Settles
        (fun fuel => evaluate fuel (.program span statements) Machine.root) machine
        ((Task.statements statements Machine.root).eventual machine) := by
      rw [← Task.eventual_program span]
      exact (Task.node (.program span statements) Machine.root).rises.settles machine
    exact ⟨_, _, _, turns, executed, evaluated, agree_eventual runnable none machine⟩

/-- A program that returns from between two statements. -/
theorem ways_agree_on_return :
    ∃ tree, readProgram "nil; return; clock;".toList = .ok tree ∧
      ∃ turns executed evaluated,
        Action.Settles (fun fuel => inTurn fuel tree.toplevel) (.start 0 .unlimited ⟨fun _ => some 0⟩)
          turns ∧
        Action.Settles (fun fuel => execute fuel tree) (.start 0 .unlimited ⟨fun _ => some 0⟩) executed ∧
        Action.Settles (fun fuel => evaluate fuel tree Machine.root)
          (.start 0 .unlimited ⟨fun _ => some 0⟩) evaluated ∧
        Agree none tree.toplevel turns executed evaluated := by
  have isRead : (readProgram "nil; return; clock;".toList).toOption.isSome = true := by
    decide +kernel
  cases read : readProgram "nil; return; clock;".toList with
  | ok tree => exact ⟨tree, rfl, (ways_of_running_agree read (.start 0 .unlimited ⟨fun _ => some 0⟩)).1⟩
  | error error =>
    rw [read] at isRead
    cases isRead

end Evaluation

end Scriptlet
