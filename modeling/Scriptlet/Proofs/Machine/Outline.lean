import Scriptlet.Proofs.Machine.Plan

/-! What the plan of each construct does, what it has evaluated on the way and what it comes to.

Plans are gone through construct by construct here and nowhere else, except side by side: what holds of
all plans is shown of the rules that this takes.
-/

set_option autoImplicit false

namespace Scriptlet

/-- What is known of results that come back to a plan. -/
structure Answers where
  ofEffect : (change : Effect) → change.Result → Prop
  ofTask : (part : Task) → part.Result → Prop

def Answers.any : Answers := ⟨fun _ _ => True, fun _ _ => True⟩

/-- A plan with such effects, tasks and values, as long as what comes back to it is an answer. -/
def Plan.Keeps (answers : Answers) (effects : Effect → Prop) (tasks : Role → Task → Prop)
    {α : Type} (good : α → Prop) : Plan α → Prop
  | .done value => good value
  | .effect change next =>
    effects change ∧ ∀ result, answers.ofEffect change result →
      (next result).Keeps answers effects tasks good
  | .task role part next =>
    tasks role part ∧ ∀ result, answers.ofTask part result →
      (next result).Keeps answers effects tasks good

theorem Plan.Keeps.imp {answers : Answers} {effects effects' : Effect → Prop}
    {tasks tasks' : Role → Task → Prop} {α : Type} {good good' : α → Prop} {plan : Plan α}
    (keeps : plan.Keeps answers effects tasks good)
    (does : ∀ change, effects change → effects' change)
    (needs : ∀ role part, tasks role part → tasks' role part)
    (values : ∀ value, good value → good' value) :
    plan.Keeps answers effects' tasks' good' := by
  induction plan with
  | done value => exact values value keeps
  | effect change next ih =>
    exact ⟨does change keeps.1, fun result gives => ih result (keeps.2 result gives)⟩
  | task role part next ih =>
    exact ⟨needs role part keeps.1, fun result gives => ih result (keeps.2 result gives)⟩

/-- The nodes that a node may evaluate for their values. -/
def Node.operands : Node → List Node
  | .assign _ _ value => [value]
  | .declare _ _ value => [value]
  | .unary _ _ operand => [operand]
  | .binary _ _ left right => [left, right]
  | .logical _ _ left right => [left, right]
  | .call _ callee _ => [callee]
  | .branch _ condition _ _ => [condition]
  | .return _ value => value.toList
  | _ => []

theorem Node.operands_subset (tree : Node) : tree.operands ⊆ tree.children := by
  cases tree <;> simp [operands, children]

/-! The rules -/

namespace Task

/-- The effects of a task, besides those of the tasks that it has evaluated. -/
inductive Does (answers : Answers) : Task → Effect → Prop where
  | lookUp {span : Span} {name : String} {scope : ScopeId} :
    Does answers (.node (.reference span name) scope) (.lookUp scope name span)
  | assign {span : Span} {name : String} {value : Node} {scope : ScopeId}
    {completion : Completion} :
    answers.ofTask (.node value scope) completion →
      Does answers (.node (.assign span name value) scope)
        (.assign scope name completion.value span)
  | declare {span : Span} {name : String} {value : Node} {scope : ScopeId}
    {completion : Completion} :
    answers.ofTask (.node value scope) completion →
      Does answers (.node (.declare span name value) scope) (.define scope name completion.value)
  | unary {span : Span} {op : UnaryOp} {operand : Node} {scope : ScopeId} {x : Completion} :
    answers.ofTask (.node operand scope) x →
      Does answers (.node (.unary span op operand) scope) (.applyUnary op x.value span)
  | binary {span : Span} {op : BinaryOp} {left right : Node} {scope : ScopeId}
    {x y : Completion} :
    answers.ofTask (.node left scope) x → answers.ofTask (.node right scope) y →
      Does answers (.node (.binary span op left right) scope) (.applyBinary op x.value y.value span)
  | notCallable {span : Span} {callee : Node} {arguments : List Node} {scope : ScopeId}
    {completion : Completion} :
    answers.ofTask (.node callee scope) completion → completion.value.isCallable = false →
      Does answers (.node (.call span callee arguments) scope) (.refuse completion.value span)
  | makeClosure {span : Span} {name : String} {parameters : List String} {body : List Node}
    {scope : ScopeId} :
    Does answers (.node (.function span name parameters body) scope)
      (.makeClosure name parameters body scope)
  | function {span : Span} {name : String} {parameters : List String} {body : List Node}
    {scope : ScopeId} {made : Closure} :
    answers.ofEffect (.makeClosure name parameters body scope) made →
      Does answers (.node (.function span name parameters body) scope)
        (.define scope name (.closure made))
  | block {span : Span} {statements : List Node} {scope : ScopeId} :
    Does answers (.node (.block span statements) scope) (.openScope scope)
  | closureArity {closure : Closure} {arguments : List Value} {span : Span} :
    Does answers (.call (.closure closure) arguments span)
      (.checkArity closure.name (.exactly closure.parameters.length) arguments.length span)
  | depth {closure : Closure} {arguments : List Value} {span : Span} :
    Does answers (.call (.closure closure) arguments span) (.checkDepth span)
  | closureScope {closure : Closure} {arguments : List Value} {span : Span} :
    Does answers (.call (.closure closure) arguments span) (.openScope closure.scope)
  | bind {closure : Closure} {arguments : List Value} {span : Span} {inner : ScopeId}
    {name : String} {value : Value} :
    answers.ofEffect (.openScope closure.scope) inner → value ∈ arguments →
      Does answers (.call (.closure closure) arguments span) (.define inner name value)
  | nativeArity {native : Native} {arguments : List Value} {span : Span} :
    Does answers (.call (.native native) arguments span)
      (.checkArity native.name native.arity arguments.length span)
  | native {native : Native} {arguments : List Value} {span : Span} :
    Does answers (.call (.native native) arguments span) (.callNative native arguments span)
  | refuse {callee : Value} {arguments : List Value} {span : Span} :
    callee.isCallable = false → Does answers (.call callee arguments span) (.refuse callee span)

/-- The tasks that a task has evaluated, and why. -/
inductive Needs (answers : Answers) : Task → Role → Task → Prop where
  | operand {tree child : Node} {scope : ScopeId} :
    child ∈ tree.operands → Needs answers (.node tree scope) .operand (.node child scope)
  | arguments {span : Span} {callee : Node} {arguments : List Node} {scope : ScopeId} :
    Needs answers (.node (.call span callee arguments) scope) .part (.operands arguments scope)
  | call {span : Span} {callee : Node} {arguments : List Node} {scope : ScopeId}
    {completion : Completion} {values : List Value} :
    answers.ofTask (.node callee scope) completion →
      answers.ofTask (.operands arguments scope) values →
      Needs answers (.node (.call span callee arguments) scope) .part
        (.call completion.value values span)
  | block {span : Span} {statements : List Node} {scope inner : ScopeId} :
    answers.ofEffect (.openScope scope) inner →
      Needs answers (.node (.block span statements) scope) .part (.statements statements inner)
  | thenBranch {span : Span} {condition thenBranch : Node} {elseBranch : Option Node}
    {scope : ScopeId} :
    Needs answers (.node (.branch span condition thenBranch elseBranch) scope) .part
      (.node thenBranch scope)
  | elseBranch {span : Span} {condition thenBranch elseBranch : Node} {scope : ScopeId} :
    Needs answers (.node (.branch span condition thenBranch (some elseBranch)) scope) .part
      (.node elseBranch scope)
  | loop {span : Span} {condition body : Node} {increment : Option Node} {scope : ScopeId} :
    Needs answers (.node (.loop span condition body increment) scope) .part
      (.rounds condition body increment scope)
  | program {span : Span} {statements : List Node} {scope : ScopeId} :
    Needs answers (.node (.program span statements) scope) .part (.statements statements scope)
  | firstOperand {first : Node} {rest : List Node} {scope : ScopeId} :
    Needs answers (.operands (first :: rest) scope) .operand (.node first scope)
  | operands {first : Node} {rest : List Node} {scope : ScopeId} :
    Needs answers (.operands (first :: rest) scope) .part (.operands rest scope)
  | firstStatement {first : Node} {rest : List Node} {scope : ScopeId} :
    Needs answers (.statements (first :: rest) scope) .part (.node first scope)
  | statements {first : Node} {rest : List Node} {scope : ScopeId} :
    Needs answers (.statements (first :: rest) scope) .part (.statements rest scope)
  | condition {condition body : Node} {increment : Option Node} {scope : ScopeId} :
    Needs answers (.rounds condition body increment scope) .operand (.node condition scope)
  | round {condition body : Node} {increment : Option Node} {scope : ScopeId} :
    Needs answers (.rounds condition body increment scope) .part (.node body scope)
  | increment {condition body step : Node} {scope : ScopeId} :
    Needs answers (.rounds condition body (some step) scope) .operand (.node step scope)
  | rounds {condition body : Node} {increment : Option Node} {scope : ScopeId} :
    Needs answers (.rounds condition body increment scope) .part
      (.rounds condition body increment scope)
  | body {closure : Closure} {arguments : List Value} {span : Span} {inner : ScopeId} :
    answers.ofEffect (.openScope closure.scope) inner →
      Needs answers (.call (.closure closure) arguments span) .body
        (.statements closure.body inner)

end Task

/-- The values of a node that control leaves at its end, and not in one of its parts. -/
inductive Node.ComesTo (answers : Answers) (scope : ScopeId) : Node → Value → Prop where
  | number {span : Span} {value : Float} : ComesTo answers scope (.number span value) (.number value)
  | string {span : Span} {text : String} : ComesTo answers scope (.string span text) (.string text)
  | boolean {span : Span} {value : Bool} :
    ComesTo answers scope (.boolean span value) (.boolean value)
  | nil {span : Span} : ComesTo answers scope (.nil span) .nil
  | reference {span : Span} {name : String} {value : Value} :
    answers.ofEffect (.lookUp scope name span) value →
      ComesTo answers scope (.reference span name) value
  | assign {span : Span} {name : String} {value : Node} {completion : Completion} :
    answers.ofTask (.node value scope) completion →
      ComesTo answers scope (.assign span name value) completion.value
  | declare {span : Span} {name : String} {value : Node} :
    ComesTo answers scope (.declare span name value) .nil
  | unary {span : Span} {op : UnaryOp} {operand : Node} {x value : Value} :
    answers.ofEffect (.applyUnary op x span) value →
      ComesTo answers scope (.unary span op operand) value
  | binary {span : Span} {op : BinaryOp} {left right : Node} {x y value : Value} :
    answers.ofEffect (.applyBinary op x y span) value →
      ComesTo answers scope (.binary span op left right) value
  | left {span : Span} {op : LogicalOp} {left right : Node} {completion : Completion} :
    answers.ofTask (.node left scope) completion →
      ComesTo answers scope (.logical span op left right) completion.value
  | right {span : Span} {op : LogicalOp} {left right : Node} {completion : Completion} :
    answers.ofTask (.node right scope) completion →
      ComesTo answers scope (.logical span op left right) completion.value
  | call {span : Span} {callee : Node} {arguments : List Node} {called value : Value}
    {values : List Value} :
    answers.ofTask (.call called values span) value →
      ComesTo answers scope (.call span callee arguments) value
  | function {span : Span} {name : String} {parameters : List String} {body : List Node} :
    ComesTo answers scope (.function span name parameters body) .nil
  | skipped {span : Span} {condition thenBranch : Node} :
    ComesTo answers scope (.branch span condition thenBranch none) .nil

/-- What a task comes to. -/
inductive Task.Yields (answers : Answers) : (task : Task) → task.Result → Prop where
  | node {tree : Node} {scope : ScopeId} {value : Value} :
    tree.ComesTo answers scope value → Yields answers (.node tree scope) ⟨value, .normal⟩
  | block {span : Span} {statements : List Node} {scope inner : ScopeId}
    {completion : Completion} :
    answers.ofTask (.statements statements inner) completion →
      Yields answers (.node (.block span statements) scope) completion
  | thenBranch {span : Span} {condition thenBranch : Node} {elseBranch : Option Node}
    {scope : ScopeId} {completion : Completion} :
    answers.ofTask (.node thenBranch scope) completion →
      Yields answers (.node (.branch span condition thenBranch elseBranch) scope) completion
  | elseBranch {span : Span} {condition thenBranch elseBranch : Node} {scope : ScopeId}
    {completion : Completion} :
    answers.ofTask (.node elseBranch scope) completion →
      Yields answers (.node (.branch span condition thenBranch (some elseBranch)) scope) completion
  | loop {span : Span} {condition body : Node} {increment : Option Node} {scope : ScopeId}
    {completion : Completion} :
    answers.ofTask (.rounds condition body increment scope) completion →
      Yields answers (.node (.loop span condition body increment) scope) completion
  | program {span : Span} {statements : List Node} {scope : ScopeId} {completion : Completion} :
    answers.ofTask (.statements statements scope) completion →
      Yields answers (.node (.program span statements) scope) completion
  | returnsNil {span : Span} {scope : ScopeId} :
    Yields answers (.node (.return span none) scope) ⟨.nil, .returned .nil⟩
  | returns {span : Span} {value : Node} {scope : ScopeId} {completion : Completion} :
    answers.ofTask (.node value scope) completion →
      Yields answers (.node (.return span (some value)) scope) ⟨.nil, .returned completion.value⟩
  | breaks {span : Span} {scope : ScopeId} :
    Yields answers (.node (.break span) scope) ⟨.nil, .broken⟩
  | continues {span : Span} {scope : ScopeId} :
    Yields answers (.node (.continue span) scope) ⟨.nil, .continued⟩
  | noOperands {scope : ScopeId} : Yields answers (.operands [] scope) []
  | operands {first : Node} {rest : List Node} {scope : ScopeId} {completion : Completion}
    {values : List Value} :
    answers.ofTask (.node first scope) completion → answers.ofTask (.operands rest scope) values →
      Yields answers (.operands (first :: rest) scope) (completion.value :: values)
  | noStatements {scope : ScopeId} : Yields answers (.statements [] scope) ⟨.nil, .normal⟩
  | statements {first : Node} {rest : List Node} {scope : ScopeId} {completion : Completion} :
    answers.ofTask (.statements rest scope) completion →
      Yields answers (.statements (first :: rest) scope) completion
  | early {first : Node} {rest : List Node} {scope : ScopeId} {completion : Completion} :
    answers.ofTask (.node first scope) completion → completion.signal ≠ .normal →
      Yields answers (.statements (first :: rest) scope) ⟨.nil, completion.signal⟩
  | finished {condition body : Node} {increment : Option Node} {scope : ScopeId} :
    Yields answers (.rounds condition body increment scope) ⟨.nil, .normal⟩
  | returnsFrom {condition body : Node} {increment : Option Node} {scope : ScopeId}
    {completion : Completion} {value : Value} :
    answers.ofTask (.node body scope) completion → completion.signal = .returned value →
      Yields answers (.rounds condition body increment scope) ⟨.nil, .returned value⟩
  | again {condition body : Node} {increment : Option Node} {scope : ScopeId}
    {completion : Completion} :
    answers.ofTask (.rounds condition body increment scope) completion →
      Yields answers (.rounds condition body increment scope) completion
  | returned {closure : Closure} {arguments : List Value} {span : Span} {inner : ScopeId}
    {completion : Completion} {value : Value} :
    answers.ofTask (.statements closure.body inner) completion →
      completion.signal = .returned value →
      Yields answers (.call (.closure closure) arguments span) value
  | ended {closure : Closure} {arguments : List Value} {span : Span} :
    Yields answers (.call (.closure closure) arguments span) .nil
  | native {native : Native} {arguments : List Value} {span : Span} {value : Value} :
    answers.ofEffect (.callNative native arguments span) value →
      Yields answers (.call (.native native) arguments span) value

/-! Plans follow the rules -/

section

variable {answers : Answers}

namespace Plan

variable {effects : Effect → Prop} {tasks : Role → Task → Prop} {α : Type} {good : α → Prop}

theorem keeps_valueOf {node : Node} {scope : ScopeId} {next : Value → Plan α}
    (needs : tasks .operand (.node node scope))
    (later : ∀ completion, answers.ofTask (.node node scope) completion →
      (next completion.value).Keeps answers effects tasks good) :
    (valueOf node scope next).Keeps answers effects tasks good :=
  ⟨needs, later⟩

theorem keeps_refuse {callee : Value} {span : Span} (does : effects (.refuse callee span)) :
    (refuse callee span : Plan α).Keeps answers effects tasks good :=
  ⟨does, fun result => result.elim⟩

theorem keeps_bindEach {scope : ScopeId} {next : Plan α} (names : List String)
    {values : List Value} (does : ∀ name, ∀ value ∈ values, effects (.define scope name value))
    (later : next.Keeps answers effects tasks good) :
    (bindEach scope next names values).Keeps answers effects tasks good := by
  induction names generalizing values with
  | nil => exact later
  | cons name names ih =>
    cases values with
    | nil => exact later
    | cons value values =>
      refine ⟨does name value List.mem_cons_self, fun _ _ => ih fun name value member => ?_⟩
      exact does name value (List.mem_cons_of_mem _ member)

end Plan

theorem Node.keeps_plan (tree : Node) (scope : ScopeId) :
    (tree.plan scope).Keeps answers (Task.Does answers (.node tree scope))
      (Task.Needs answers (.node tree scope)) (Task.Yields answers (.node tree scope)) := by
  have operand {child : Node} (member : child ∈ tree.operands) :
      Task.Needs answers (.node tree scope) .operand (.node child scope) := .operand member
  cases tree with
  | number => exact .node .number
  | string => exact .node .string
  | boolean => exact .node .boolean
  | nil => exact .node .nil
  | reference =>
    rw [plan]
    exact ⟨.lookUp, fun value found => .node (.reference found)⟩
  | assign =>
    rw [plan]
    refine Plan.keeps_valueOf (operand (by simp [operands])) fun completion given => ?_
    exact ⟨.assign given, fun _ _ => .node (.assign given)⟩
  | declare =>
    rw [plan]
    refine Plan.keeps_valueOf (operand (by simp [operands])) fun completion given => ?_
    exact ⟨.declare given, fun _ _ => .node .declare⟩
  | unary =>
    rw [plan]
    refine Plan.keeps_valueOf (operand (by simp [operands])) fun x givenX => ?_
    exact ⟨.unary givenX, fun value applied => .node (.unary applied)⟩
  | binary =>
    rw [plan]
    refine Plan.keeps_valueOf (operand (by simp [operands])) fun x givenX => ?_
    refine Plan.keeps_valueOf (operand (by simp [operands])) fun y givenY => ?_
    exact ⟨.binary givenX givenY, fun value applied => .node (.binary applied)⟩
  | logical =>
    rw [plan]
    refine Plan.keeps_valueOf (operand (by simp [operands])) fun left givenLeft => ?_
    split
    · exact .node (.left givenLeft)
    · refine Plan.keeps_valueOf (operand (by simp [operands])) fun right givenRight => ?_
      exact .node (.right givenRight)
  | call =>
    rw [plan]
    refine Plan.keeps_valueOf (operand (by simp [operands])) fun callee givenCallee => ?_
    split
    · refine ⟨.arguments, fun values givenValues => ?_⟩
      exact ⟨.call givenCallee givenValues, fun value given => .node (.call given)⟩
    · next notCallable =>
      exact Plan.keeps_refuse (.notCallable givenCallee (Bool.eq_false_iff.mpr notCallable))
  | function =>
    rw [plan]
    exact ⟨.makeClosure, fun made isMade => ⟨.function isMade, fun _ _ => .node .function⟩⟩
  | block =>
    rw [plan]
    exact ⟨.block, fun inner opened => ⟨.block opened, fun _ given => .block given⟩⟩
  | branch span condition thenBranch elseBranch =>
    unfold plan
    refine Plan.keeps_valueOf (operand (by simp [operands])) fun test _ => ?_
    split
    · exact ⟨.thenBranch, fun _ given => .thenBranch given⟩
    · cases elseBranch with
      | none => exact .node .skipped
      | some node => exact ⟨.elseBranch, fun _ given => .elseBranch given⟩
  | loop =>
    rw [plan]
    exact ⟨.loop, fun _ given => .loop given⟩
  | «return» span value =>
    cases value with
    | none => exact .returnsNil
    | some value =>
      rw [plan]
      exact Plan.keeps_valueOf (operand (by simp [operands])) fun _ given => .returns given
  | «break» => exact .breaks
  | «continue» => exact .continues
  | program =>
    rw [plan]
    exact ⟨.program, fun _ given => .program given⟩

theorem Plan.keeps_program {effects : Effect → Prop} {tasks : Role → Task → Prop}
    {statements : List Node}
    (needs : ∀ statement ∈ statements, tasks .part (.node statement Machine.root))
    (last : Option Value) :
    (program statements last).Keeps answers effects tasks fun _ => True := by
  induction statements generalizing last with
  | nil => trivial
  | cons statement rest ih =>
    obtain ⟨first, others⟩ := List.forall_mem_cons.mp needs
    refine ⟨first, fun completion _ => ?_⟩
    dsimp only
    split
    · trivial
    · exact ih others _

theorem Task.keeps_call (callee : Value) (arguments : List Value) (span : Span) :
    (Task.call callee arguments span).plan.Keeps answers
      (Task.Does answers (.call callee arguments span))
      (Task.Needs answers (.call callee arguments span))
      (Task.Yields answers (.call callee arguments span)) := by
  cases callee with
  | closure closure =>
    rw [plan]
    refine ⟨.closureArity, fun _ _ => ⟨.depth, fun _ _ => ⟨.closureScope, fun inner opened => ?_⟩⟩⟩
    refine Plan.keeps_bindEach _ (fun name value member => .bind opened member) ?_
    refine ⟨.body opened, fun completion given => ?_⟩
    dsimp only
    split
    · next value signal => exact .returned given signal
    · exact .ended
  | native native =>
    rw [plan]
    exact ⟨.nativeArity, fun _ _ => ⟨.native, fun value given => .native given⟩⟩
  | _ => exact Plan.keeps_refuse (.refuse rfl)

theorem Task.keeps_rounds (condition body : Node) (increment : Option Node) (scope : ScopeId) :
    (Task.rounds condition body increment scope).plan.Keeps answers
      (Task.Does answers (.rounds condition body increment scope))
      (Task.Needs answers (.rounds condition body increment scope))
      (Task.Yields answers (.rounds condition body increment scope)) := by
  -- the rounds that follow, after this one and its increment
  have again : (Plan.task .part (.rounds condition body increment scope) Plan.done).Keeps answers
      (Task.Does answers (.rounds condition body increment scope))
      (Task.Needs answers (.rounds condition body increment scope))
      (Task.Yields answers (.rounds condition body increment scope)) :=
    ⟨.rounds, fun _ given => .again given⟩
  unfold plan
  refine Plan.keeps_valueOf .condition fun test _ => ?_
  split
  · refine ⟨.round, fun completion given => ?_⟩
    dsimp only
    split
    · exact .finished
    · next value signal => exact .returnsFrom given signal
    · cases increment with
      | none => exact again
      | some step => exact Plan.keeps_valueOf .increment fun _ _ => again
  · exact .finished

theorem Task.keeps_plan (task : Task) :
    task.plan.Keeps answers (task.Does answers) (task.Needs answers) (task.Yields answers) := by
  cases task with
  | node tree scope => exact tree.keeps_plan scope
  | operands nodes scope =>
    cases nodes with
    | nil => exact .noOperands
    | cons first rest =>
      rw [plan]
      refine Plan.keeps_valueOf .firstOperand fun completion given => ?_
      exact ⟨.operands, fun values givenValues => .operands given givenValues⟩
  | statements nodes scope =>
    cases nodes with
    | nil => exact .noStatements
    | cons first rest =>
      rw [plan]
      refine ⟨.firstStatement, fun completion given => ?_⟩
      dsimp only
      split
      · exact ⟨.statements, fun _ givenLast => .statements givenLast⟩
      · next early => exact .early given early
  | rounds condition body increment scope => exact keeps_rounds condition body increment scope
  | call callee arguments span => exact keeps_call callee arguments span

end

end Scriptlet
