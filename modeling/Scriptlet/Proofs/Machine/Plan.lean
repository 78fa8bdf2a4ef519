import Scriptlet.Machine.Evaluation
import Scriptlet.Proofs.Machine.Effect

/-! Evaluation laid out as a plan: what is done to the machine itself, and what is evaluated on the
way. A plan goes on with the results alone; it cannot look at the machine.
-/

set_option autoImplicit false

namespace Scriptlet

/-- What can be evaluated, each with a function of its own. -/
inductive Task where
  | node (tree : Node) (scope : ScopeId)
  | operands (nodes : List Node) (scope : ScopeId)
  | statements (nodes : List Node) (scope : ScopeId)
  | rounds (condition body : Node) (increment : Option Node) (scope : ScopeId)
  | call (callee : Value) (arguments : List Value) (span : Span)

namespace Task

abbrev Result : Task → Type
  | node .. => Completion
  | operands .. => List Value
  | statements .. => Completion
  | rounds .. => Completion
  | call .. => Value

def run (fuel : Nat) : (task : Task) → Evaluation task.Result
  | node tree scope => Evaluation.evaluate fuel tree scope
  | operands nodes scope => Evaluation.evaluateEach fuel nodes scope
  | statements nodes scope => Evaluation.runEach fuel nodes scope
  | rounds condition body increment scope => Evaluation.runLoop fuel condition body increment scope
  | call callee arguments span => Evaluation.call fuel callee arguments span

end Task

/-- Why a task is evaluated: as a part that control can leave in any way, for its value alone, or as
the body of a function that is called. -/
inductive Role where
  | part | operand | body
  deriving DecidableEq

namespace Role

def enter (role : Role) (machine : Machine) : Machine :=
  match role with
  | body => { machine with depth := machine.depth + 1 }
  | _ => machine

def leave (role : Role) (machine : Machine) : Machine :=
  match role with
  | body => { machine with depth := machine.depth - 1 }
  | _ => machine

def around {α : Type} (role : Role) (action : Evaluation α) : Evaluation α :=
  Action.around role.enter role.leave action

theorem around_part {α : Type} (action : Evaluation α) : part.around action = action := by
  funext machine
  unfold around Action.around
  dsimp only [enter, leave]
  cases action machine <;> rfl

theorem around_operand {α : Type} (action : Evaluation α) : operand.around action = action :=
  around_part action

end Role

inductive Plan (α : Type) where
  | done (value : α)
  | effect (change : Effect) (next : change.Result → Plan α)
  | task (role : Role) (part : Task) (next : part.Result → Plan α)

namespace Plan

def run {α : Type} (fuel : Nat) : Plan α → Evaluation α
  | done value => pure value
  | effect change next => change.run >>= fun result => (next result).run fuel
  | task role part next => role.around (part.run fuel) >>= fun result => (next result).run fuel

def valueOf {α : Type} (node : Node) (scope : ScopeId) (next : Value → Plan α) : Plan α :=
  .task .operand (.node node scope) fun completion => next completion.value

def normally (value : Value) : Plan Completion := .done ⟨value, .normal⟩

def leaving (signal : Signal) : Plan Completion := .done ⟨.nil, signal⟩

def refuse {α : Type} (callee : Value) (span : Span) : Plan α :=
  .effect (.refuse callee span) Empty.elim

def bindEach {α : Type} (scope : ScopeId) (next : Plan α) : List String → List Value → Plan α
  | name :: names, value :: values =>
    .effect (.define scope name value) fun _ => bindEach scope next names values
  | _, _ => next

end Plan

def Node.plan (node : Node) (scope : ScopeId) : Plan Completion :=
  match node with
  | .number _ value => .normally (.number value)
  | .string _ text => .normally (.string text)
  | .boolean _ value => .normally (.boolean value)
  | .nil _ => .normally .nil
  | .reference span name => .effect (.lookUp scope name span) fun value => .normally value
  | .assign span name value =>
    .valueOf value scope fun value =>
    .effect (.assign scope name value span) fun _ => .normally value
  | .declare _ name value =>
    .valueOf value scope fun value =>
    .effect (.define scope name value) fun _ => .normally .nil
  | .unary span op operand =>
    .valueOf operand scope fun operand =>
    .effect (.applyUnary op operand span) fun value => .normally value
  | .binary span op left right =>
    .valueOf left scope fun left =>
    .valueOf right scope fun right =>
    .effect (.applyBinary op left right span) fun value => .normally value
  | .logical _ op left right =>
    .valueOf left scope fun left =>
    if op.decidedBy left then .normally left
    else .valueOf right scope fun right => .normally right
  | .call span callee arguments =>
    .valueOf callee scope fun callee =>
    if callee.isCallable then
      .task .part (.operands arguments scope) fun arguments =>
      .task .part (.call callee arguments span) fun value => .normally value
    else
      .refuse callee span
  | .function _ name parameters body =>
    .effect (.makeClosure name parameters body scope) fun closure =>
    .effect (.define scope name (.closure closure)) fun _ => .normally .nil
  | .block _ statements =>
    .effect (.openScope scope) fun inner =>
    .task .part (.statements statements inner) .done
  | .branch _ condition thenBranch elseBranch =>
    .valueOf condition scope fun test =>
    if test.isTruthy then .task .part (.node thenBranch scope) .done
    else
      match elseBranch with
      | some node => .task .part (.node node scope) .done
      | none => .normally .nil
  | .loop _ condition body increment =>
    .task .part (.rounds condition body increment scope) .done
  | .return _ none => .leaving (.returned .nil)
  | .return _ (some value) => .valueOf value scope fun value => .leaving (.returned value)
  | .break _ => .leaving .broken
  | .continue _ => .leaving .continued
  | .program _ statements => .task .part (.statements statements scope) .done

namespace Task

def plan : (task : Task) → Plan task.Result
  | node tree scope => tree.plan scope
  | operands [] _ => .done []
  | operands (first :: rest) scope =>
    .valueOf first scope fun value =>
    .task .part (.operands rest scope) fun values => .done (value :: values)
  | statements [] _ => .normally .nil
  | statements (first :: rest) scope =>
    .task .part (.node first scope) fun completion =>
    match completion.signal with
    | .normal => .task .part (.statements rest scope) .done
    | signal => .leaving signal
  | rounds condition body increment scope =>
    .valueOf condition scope fun test =>
    if test.isTruthy then
      .task .part (.node body scope) fun completion =>
      match completion.signal with
      | .broken => .normally .nil
      | .returned value => .leaving (.returned value)
      | _ =>
        match increment with
        | none => .task .part (.rounds condition body increment scope) .done
        | some step =>
          .valueOf step scope fun _ =>
          .task .part (.rounds condition body increment scope) .done
    else
      .normally .nil
  | call (.closure closure) arguments span =>
    .effect (.checkArity closure.name (.exactly closure.parameters.length) arguments.length span)
      fun _ =>
    .effect (.checkDepth span) fun _ =>
    .effect (.openScope closure.scope) fun scope =>
    .bindEach scope
      (.task .body (.statements closure.body scope) fun completion =>
        match completion.signal with
        | .returned value => .done value
        | _ => .done .nil)
      closure.parameters arguments
  | call (.native native) arguments span =>
    .effect (.checkArity native.name native.arity arguments.length span) fun _ =>
    .effect (.callNative native arguments span) .done
  | call other _ span => .refuse other span

end Task

/-- Top-level statements in the root scope, up to one that returns. -/
def Plan.program : List Node → Option Value → Plan (Option Value)
  | [], last => .done last
  | statement :: rest, _ =>
    .task .part (.node statement Machine.root) fun completion =>
    match completion.signal with
    | .returned value => .done (some value)
    | _ => program rest (if statement.isExpression then some completion.value else none)

/-! A task does what its plan says -/

namespace Plan

variable {α : Type} {fuel : Nat}

theorem run_done (value : α) : (Plan.done value).run fuel = pure value := rfl

theorem run_effect (change : Effect) (next : change.Result → Plan α) :
    (Plan.effect change next).run fuel =
      change.run >>= fun result => (next result).run fuel := rfl

theorem run_part (part : Task) (next : part.Result → Plan α) :
    (Plan.task .part part next).run fuel =
      part.run fuel >>= fun result => (next result).run fuel := by
  rw [run, Role.around_part]

theorem run_body (part : Task) (next : part.Result → Plan α) :
    (Plan.task .body part next).run fuel =
      Evaluation.oneDeeper (part.run fuel) >>= fun result => (next result).run fuel := rfl

theorem run_valueOf (node : Node) (scope : ScopeId) (next : Value → Plan α) :
    (valueOf node scope next).run fuel =
      Evaluation.valueOf (Evaluation.evaluate fuel node scope) >>= fun value =>
        (next value).run fuel := by
  rw [valueOf, run, Role.around_operand, Evaluation.valueOf, bind_assoc]
  rfl

theorem run_bindEach (scope : ScopeId) (next : Plan α) (names : List String)
    (values : List Value) :
    (bindEach scope next names values).run fuel =
      Evaluation.bindEach scope names values >>= fun _ => next.run fuel := by
  induction names generalizing values with
  | nil => rfl
  | cons name names ih =>
    cases values with
    | nil => rfl
    | cons value values =>
      rw [bindEach, run_effect, Evaluation.bindEach, bind_assoc]
      simp only [ih]
      rfl

theorem run_ite (condition : Prop) [Decidable condition] (yes no : Plan α) :
    (if condition then yes else no).run fuel =
      if condition then yes.run fuel else no.run fuel := by
  split <;> rfl

theorem run_program (statements : List Node) (last : Option Value) :
    (program statements last).run fuel =
      Evaluation.executeEach fuel Machine.root statements last := by
  induction statements generalizing last with
  | nil => rfl
  | cons statement rest ih =>
    rw [program, run_part, Evaluation.executeEach]
    refine bind_congr fun completion => ?_
    cases completion.signal with
    | returned value => rfl
    | _ => exact ih _

end Plan

theorem Task.run_zero (task : Task) (machine : Machine) : task.run 0 machine = .cutOff := by
  cases task <;> simp only [run, Evaluation.evaluate, Evaluation.evaluateEach, Evaluation.runEach,
    Evaluation.runLoop, Evaluation.call] <;> rfl

theorem Node.evaluate_eq_plan (node : Node) (scope : ScopeId) (fuel : Nat) :
    Evaluation.evaluate (fuel + 1) node scope = (node.plan scope).run fuel := by
  cases node with
  | number | string | boolean | nil | reference =>
    rw [Evaluation.evaluate]
    rfl
  | assign => simp only [Evaluation.evaluate, plan, Plan.run_valueOf]; rfl
  | declare => simp only [Evaluation.evaluate, plan, Plan.run_valueOf]; rfl
  | unary => simp only [Evaluation.evaluate, plan, Plan.run_valueOf]; rfl
  | binary => simp only [Evaluation.evaluate, plan, Plan.run_valueOf]; rfl
  | logical =>
    simp only [Evaluation.evaluate, plan, Plan.run_valueOf, Plan.run_ite]
    rfl
  | call =>
    simp only [Evaluation.evaluate, plan, Plan.run_valueOf, Plan.run_ite, Plan.run_part]
    rfl
  | function =>
    rw [Evaluation.evaluate]
    rfl
  | block =>
    simp only [Evaluation.evaluate, plan, Plan.run_effect, Plan.run_part, Plan.run_done, bind_pure]
    rfl
  | branch span condition thenBranch elseBranch =>
    cases elseBranch <;>
      simp only [Evaluation.evaluate, plan, Plan.run_valueOf, Plan.run_ite, Plan.run_part,
        Plan.run_done, bind_pure] <;> rfl
  | loop => simp only [Evaluation.evaluate, plan, Plan.run_part, Plan.run_done, bind_pure]; rfl
  | «return» span value =>
    cases value with
    | none => rw [Evaluation.evaluate]; rfl
    | some value => simp only [Evaluation.evaluate, plan, Plan.run_valueOf]; rfl
  | «break» => rw [Evaluation.evaluate]; rfl
  | «continue» => rw [Evaluation.evaluate]; rfl
  | program => simp only [Evaluation.evaluate, plan, Plan.run_part, Plan.run_done, bind_pure]; rfl

theorem Task.run_succ (task : Task) (fuel : Nat) : task.run (fuel + 1) = task.plan.run fuel := by
  cases task with
  | node tree scope => exact tree.evaluate_eq_plan scope fuel
  | operands nodes scope =>
    cases nodes with
    | nil => rw [run, Evaluation.evaluateEach]; rfl
    | cons first rest =>
      simp only [run, Evaluation.evaluateEach, plan, Plan.run_valueOf, Plan.run_part]
      rfl
  | statements nodes scope =>
    cases nodes with
    | nil => rw [run, Evaluation.runEach]; rfl
    | cons first rest =>
      simp only [run, Evaluation.runEach, plan, Plan.run_part]
      congr 1
      funext completion
      cases completion.signal with
      | normal => simp only [Plan.run_part, Plan.run_done, bind_pure]; rfl
      | _ => rfl
  | rounds condition body increment scope =>
    rw [run, Evaluation.runLoop.eq_def]
    simp only [plan, Plan.run_valueOf, Plan.run_ite, Plan.run_part]
    refine bind_congr fun test => ?_
    split
    · refine bind_congr fun completion => ?_
      -- after a round that is over, what is left is the increment and the other rounds
      have goesOn : (match increment with
          | none => Evaluation.runLoop fuel condition body increment scope
          | some step => do
            let _ ← Evaluation.valueOf (Evaluation.evaluate fuel step scope)
            Evaluation.runLoop fuel condition body increment scope) =
          Plan.run fuel (match increment with
            | none => .task .part (.rounds condition body increment scope) .done
            | some step =>
              .valueOf step scope fun _ =>
              .task .part (.rounds condition body increment scope) .done) := by
        cases increment with
        | none => simp only [Plan.run_part, Plan.run_done, bind_pure, run]
        | some step => simp only [Plan.run_valueOf, Plan.run_part, Plan.run_done, bind_pure, run]
      cases completion.signal with
      | normal => exact goesOn
      | broken => rfl
      | continued => exact goesOn
      | returned value => rfl
    · rfl
  | call callee arguments span =>
    cases callee with
    | closure closure =>
      simp only [run, Evaluation.call, plan, Plan.run_effect, Plan.run_bindEach, Plan.run_body]
      refine bind_congr fun _ => bind_congr fun _ => bind_congr fun scope => ?_
      refine bind_congr fun _ => bind_congr fun completion => ?_
      cases completion.signal <;> rfl
    | native native =>
      simp only [run, Evaluation.call, plan, Plan.run_effect, Plan.run_done, bind_pure]
      rfl
    | _ => simp only [run, Evaluation.call]; rfl

end Scriptlet
