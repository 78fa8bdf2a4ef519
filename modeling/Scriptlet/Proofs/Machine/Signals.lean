import Scriptlet.Proofs.Grammar.Soundness
import Scriptlet.Proofs.Machine.Plain
import Scriptlet.Proofs.Machine.Preservation
import Scriptlet.Proofs.Scope.Bound

/-! Where control goes when it leaves a node early: `break` and `continue` end at a loop around
them, as the grammar has made sure of, and `return` at a call.
-/

set_option autoImplicit false

namespace Scriptlet

open WellFormed

/-- A function whose body is outside of loops, or a value of another type. -/
def Value.IsSound : Value → Prop
  | closure made => ∀ node ∈ made.body, Statement false node
  | _ => True

theorem Value.IsPlain.isSound {value : Value} (plain : value.IsPlain) : value.IsSound := by
  cases value with
  | closure made => cases plain
  | _ => trivial

/-- Host functions that are given sound values give sound values back. -/
def Behaviour.IsSound (behaviour : Behaviour) : Prop :=
  ∀ arguments span host, (∀ value ∈ arguments, Value.IsSound value) →
    (behaviour arguments span host).Meets (fun value _ => value.IsSound) fun _ _ => True

theorem Behaviour.IsPlain.isSound {behaviour : Behaviour} (plain : behaviour.IsPlain) :
    behaviour.IsSound :=
  fun arguments span host _ =>
    (plain arguments span host).mono (fun _ _ plain => plain.isSound) fun _ _ _ => trivial

structure Machine.IsSound (machine : Machine) : Prop where
  store : machine.store.All Value.IsSound
  behaviours : ∀ behaviour ∈ machine.behaviours, Behaviour.IsSound behaviour

/-! Effects -/

def Effect.IsSound : Effect → Prop
  | assign _ _ value _ => value.IsSound
  | define _ _ value => value.IsSound
  | callNative _ arguments _ => ∀ value ∈ arguments, Value.IsSound value
  | _ => True

def Effect.Gives : (change : Effect) → change.Result → Prop
  | lookUp .., value => value.IsSound
  | makeClosure _ _ body _, made => made.body = body
  | applyUnary .., value => value.IsSound
  | applyBinary .., value => value.IsSound
  | callNative .., value => value.IsSound
  | _, _ => True

theorem Effect.meets {change : Effect} (sound : change.IsSound) {machine : Machine}
    (holds : machine.IsSound) :
    (change.run machine).Meets (fun result after => change.Gives result ∧ after.IsSound)
      fun _ after => after.IsSound := by
  refine (change.meets_run machine).mono (fun result after done => ?_) fun error after fails => ?_
  · cases done with
    | lookUp found => exact ⟨holds.store.of_get found, holds⟩
    | @assign scope owner name value span machine found =>
      exact ⟨trivial, holds.store.define owner name sound, holds.behaviours⟩
    | @define scope name value machine =>
      exact ⟨trivial, holds.store.define scope name sound, holds.behaviours⟩
    | @openScope outer machine =>
      exact ⟨trivial, holds.store.addFrame (some outer), holds.behaviours⟩
    | makeClosure => exact ⟨rfl, holds.store, holds.behaviours⟩
    | applyUnary applied => exact ⟨(UnaryOp.isPlain_of_apply applied).isSound, holds⟩
    | applyBinary applied => exact ⟨(BinaryOp.isPlain_of_apply applied).isSound, holds⟩
    | checkArity => exact ⟨trivial, holds⟩
    | checkDepth => exact ⟨trivial, holds⟩
    | @callNative native arguments span machine behaviour value host known outcome =>
      have given := holds.behaviours behaviour (Array.mem_of_getElem? known) arguments span
        machine.host sound
      rw [outcome] at given
      exact ⟨given, holds.store, holds.behaviours⟩
  · cases fails <;> exact ⟨holds.store, holds.behaviours⟩

/-! Statements as they are run -/

/-- A statement within a loop or outside of all, or the loop of a `for` alone. -/
inductive Runnable (inLoop : Bool) : Node → Prop where
  | statement {node : Node} : Statement inLoop node → Runnable inLoop node
  | counted {span : Span} {condition body increment : Node} :
    Expression condition → Statement true body → Expression increment →
      Runnable inLoop (.loop span condition body (some increment))

namespace Runnable

variable {inLoop : Bool}

theorem expression {tree : Node} (runnable : Runnable inLoop tree)
    (kind : tree.isExpression = true) : Expression tree := by
  cases runnable with
  | counted => cases kind
  | statement sound =>
    cases sound with
    | expression sound => exact sound
    | _ => cases kind

theorem declare {span : Span} {name : String} {value : Node}
    (runnable : Runnable inLoop (.declare span name value)) : Expression value := by
  cases runnable with
  | statement sound =>
    cases sound with
    | expression sound => cases sound
    | declare _ value => exact value

theorem function {span : Span} {name : String} {parameters : List String} {body : List Node}
    (runnable : Runnable inLoop (.function span name parameters body)) :
    ∀ node ∈ body, Statement false node := by
  cases runnable with
  | statement sound =>
    cases sound with
    | expression sound => cases sound
    | function _ _ body => exact body

theorem block {span : Span} {statements : List Node}
    (runnable : Runnable inLoop (.block span statements)) :
    ∀ node ∈ statements, Runnable inLoop node := by
  generalize same : Node.block span statements = tree at runnable
  cases runnable with
  | counted => cases same
  | statement sound =>
    cases sound with
    | expression sound => cases sound <;> cases same
    | block sound =>
      cases same
      exact fun node member => .statement (sound node member)
    -- of a `for` loop, the last statement is one only within this block
    | forLoop first condition body increment =>
      cases same
      intro node member
      rcases List.mem_append.mp member with isFirst | isLoop
      · exact .statement ((first node (Option.mem_toList.mp isFirst)).statement inLoop)
      · rw [List.mem_singleton.mp isLoop]
        exact .counted condition body increment
    | _ => cases same

theorem branch {span : Span} {condition thenBranch : Node} {elseBranch : Option Node}
    (runnable : Runnable inLoop (.branch span condition thenBranch elseBranch)) :
    Expression condition ∧ Runnable inLoop thenBranch ∧
      ∀ node ∈ elseBranch, Runnable inLoop node := by
  cases runnable with
  | statement sound =>
    cases sound with
    | expression sound => cases sound
    | ifThen condition thenBranch => exact ⟨condition, .statement thenBranch, by simp⟩
    | ifElse condition thenBranch _ elseBranch =>
      refine ⟨condition, .statement thenBranch, ?_⟩
      rintro _ ⟨⟩
      exact .statement elseBranch

theorem loop {span : Span} {condition body : Node} {increment : Option Node}
    (runnable : Runnable inLoop (.loop span condition body increment)) :
    Expression condition ∧ Statement true body ∧ ∀ node ∈ increment, Expression node := by
  cases runnable with
  | counted condition body increment =>
    refine ⟨condition, body, ?_⟩
    rintro _ ⟨⟩
    exact increment
  | statement sound =>
    cases sound with
    | expression sound => cases sound
    | whileLoop condition body => exact ⟨condition, body, by simp⟩

theorem returning {span : Span} {value : Option Node}
    (runnable : Runnable inLoop (.return span value)) : ∀ node ∈ value, Expression node := by
  cases runnable with
  | statement sound =>
    cases sound with
    | expression sound => cases sound
    | returning value => exact value

theorem breaking {span : Span} (runnable : Runnable inLoop (.break span)) : inLoop = true := by
  cases runnable with
  | statement sound =>
    cases sound with
    | expression sound => cases sound
    | breaking => rfl

theorem continuing {span : Span} (runnable : Runnable inLoop (.continue span)) :
    inLoop = true := by
  cases runnable with
  | statement sound =>
    cases sound with
    | expression sound => cases sound
    | continuing => rfl

theorem not_program {span : Span} {statements : List Node} :
    ¬Runnable inLoop (.program span statements) := by
  intro runnable
  cases runnable with
  | statement sound =>
    cases sound with
    | expression sound => cases sound

end Runnable

/-! What tasks are given and give back -/

/-- How control may leave what stands within a loop or outside of all. -/
def Signal.Fits (inLoop : Bool) : Signal → Prop
  | normal => True
  | returned value => value.IsSound
  | _ => inLoop = true

theorem Signal.Fits.mono {signal : Signal} (fits : signal.Fits false) (inLoop : Bool) :
    signal.Fits inLoop := by
  cases signal with
  | normal => trivial
  | returned value => exact fits
  | broken => cases fits
  | continued => cases fits

def Task.IsSound : Task → Prop
  | node tree _ => ∃ inLoop, Runnable inLoop tree
  | operands nodes _ => ∀ node ∈ nodes, Expression node
  | statements nodes _ => ∃ inLoop, ∀ node ∈ nodes, Runnable inLoop node
  | rounds condition body increment _ =>
    Expression condition ∧ Statement true body ∧ ∀ node ∈ increment, Expression node
  | call callee arguments _ => callee.IsSound ∧ ∀ value ∈ arguments, Value.IsSound value

/-- What is evaluated for its value is an expression, and bodies stand outside of loops. -/
def Task.FitsRole : Role → Task → Prop
  | .part, _ => True
  | .operand, node tree _ => Expression tree
  | .body, statements nodes _ => ∀ node ∈ nodes, Statement false node
  | _, _ => False

def Task.Gives : (task : Task) → task.Result → Prop
  | node tree _, completion =>
    completion.value.IsSound ∧ (Expression tree → completion.signal = .normal) ∧
      ∀ inLoop, Runnable inLoop tree → completion.signal.Fits inLoop
  | operands .., values => ∀ value ∈ values, Value.IsSound value
  | statements nodes _, completion =>
    completion.value.IsSound ∧
      ∀ inLoop, (∀ node ∈ nodes, Runnable inLoop node) → completion.signal.Fits inLoop
  | rounds .., completion => completion.value.IsSound ∧ completion.signal.Fits false
  | call .., value => value.IsSound

def signalContract : Contract where
  holds := Machine.IsSound
  fits role task := task.IsSound ∧ Task.FitsRole role task
  fulfils := Task.Gives

theorem Runnable.operands {inLoop : Bool} {tree : Node} (runnable : Runnable inLoop tree) :
    ∀ child ∈ tree.operands, Expression child := by
  cases tree with
  | assign =>
    cases runnable.expression rfl with
    | assign _ value => exact List.forall_mem_singleton.mpr value
  | declare => exact List.forall_mem_singleton.mpr runnable.declare
  | unary =>
    cases runnable.expression rfl with
    | unary operand => exact List.forall_mem_singleton.mpr operand
  | binary =>
    cases runnable.expression rfl with
    | binary left right => simpa [Node.operands] using ⟨left, right⟩
  | logical =>
    cases runnable.expression rfl with
    | logical left right => simpa [Node.operands] using ⟨left, right⟩
  | call =>
    cases runnable.expression rfl with
    | call callee _ => exact List.forall_mem_singleton.mpr callee
  | branch => exact List.forall_mem_singleton.mpr runnable.branch.1
  | «return» => exact fun child member => runnable.returning child (Option.mem_toList.mp member)
  | _ => exact List.forall_mem_nil _

/-! What sound tasks do, need and come to -/

namespace Task.IsSound

variable {task : Task}

theorem does {change : Effect} (sound : task.IsSound)
    (does : task.Does ⟨Effect.Gives, Task.Gives⟩ change) : change.IsSound := by
  cases does with
  | assign given => exact given.1
  | declare given => exact given.1
  | @function span name parameters body scope made isMade =>
    obtain ⟨inLoop, runnable⟩ := sound
    -- the function keeps the body that the grammar has read outside of loops
    have same : made.body = body := isMade
    rw [Effect.IsSound, Value.IsSound, same]
    exact runnable.function
  | bind _ member => exact sound.2 _ member
  | native => exact sound.2
  | _ => trivial

theorem needs {role : Role} {part : Task} (sound : task.IsSound)
    (needs : task.Needs ⟨Effect.Gives, Task.Gives⟩ role part) :
    part.IsSound ∧ Task.FitsRole role part := by
  have operand {tree : Node} {scope : ScopeId} (expression : Expression tree) :
      (Task.node tree scope).IsSound ∧ Task.FitsRole .operand (.node tree scope) :=
    ⟨⟨false, .statement (.expression expression)⟩, expression⟩
  cases needs with
  | operand member =>
    obtain ⟨inLoop, runnable⟩ := sound
    exact operand (runnable.operands _ member)
  | arguments =>
    obtain ⟨inLoop, runnable⟩ := sound
    cases runnable.expression rfl with
    | call _ arguments => exact ⟨arguments, trivial⟩
  | call given values => exact ⟨⟨given.1, values⟩, trivial⟩
  | block =>
    obtain ⟨inLoop, runnable⟩ := sound
    exact ⟨⟨inLoop, runnable.block⟩, trivial⟩
  | thenBranch =>
    obtain ⟨inLoop, runnable⟩ := sound
    exact ⟨⟨inLoop, runnable.branch.2.1⟩, trivial⟩
  | elseBranch =>
    obtain ⟨inLoop, runnable⟩ := sound
    exact ⟨⟨inLoop, runnable.branch.2.2 _ rfl⟩, trivial⟩
  | loop =>
    obtain ⟨inLoop, runnable⟩ := sound
    exact ⟨runnable.loop, trivial⟩
  | program =>
    obtain ⟨inLoop, runnable⟩ := sound
    exact absurd runnable Runnable.not_program
  | firstOperand => exact operand (sound _ List.mem_cons_self)
  | operands => exact ⟨fun node member => sound node (List.mem_cons_of_mem _ member), trivial⟩
  | firstStatement =>
    obtain ⟨inLoop, runnable⟩ := sound
    exact ⟨⟨inLoop, runnable _ List.mem_cons_self⟩, trivial⟩
  | statements =>
    obtain ⟨inLoop, runnable⟩ := sound
    exact ⟨⟨inLoop, fun node member => runnable node (List.mem_cons_of_mem _ member)⟩, trivial⟩
  | condition => exact operand sound.1
  | round => exact ⟨⟨true, .statement sound.2.1⟩, trivial⟩
  | increment => exact operand (sound.2.2 _ rfl)
  | rounds => exact ⟨sound, trivial⟩
  | body =>
    -- no loop of the caller is around a body, so neither a break nor a continue leaves it
    exact ⟨⟨false, fun node member => .statement (sound.1 node member)⟩, sound.1⟩

end Task.IsSound

theorem Node.ComesTo.isSound {scope : ScopeId} {tree : Node} {value : Value}
    (comesTo : tree.ComesTo ⟨Effect.Gives, Task.Gives⟩ scope value) : value.IsSound := by
  cases comesTo with
  | reference found => exact found
  | assign given => exact given.1
  | unary applied => exact applied
  | binary applied => exact applied
  | left given => exact given.1
  | right given => exact given.1
  | call given => exact given
  | _ => trivial

theorem Task.Yields.gives {task : Task} {result : task.Result} (sound : task.IsSound)
    (yields : task.Yields ⟨Effect.Gives, Task.Gives⟩ result) : task.Gives result := by
  cases yields with
  | node comesTo => exact ⟨comesTo.isSound, fun _ => rfl, fun _ _ => trivial⟩
  | block given => exact ⟨given.1, by rintro ⟨⟩, fun inLoop runnable => given.2 inLoop runnable.block⟩
  | thenBranch given =>
    exact ⟨given.1, by rintro ⟨⟩, fun inLoop runnable => given.2.2 inLoop runnable.branch.2.1⟩
  | elseBranch given =>
    exact ⟨given.1, by rintro ⟨⟩, fun inLoop runnable =>
      given.2.2 inLoop (runnable.branch.2.2 _ rfl)⟩
  | loop given =>
    -- a loop catches what its body has left, so it can stand outside of loops itself
    exact ⟨given.1, by rintro ⟨⟩, fun inLoop _ => given.2.mono inLoop⟩
  | program =>
    obtain ⟨inLoop, runnable⟩ := sound
    exact absurd runnable Runnable.not_program
  | returnsNil => exact ⟨trivial, by rintro ⟨⟩, fun _ _ => trivial⟩
  | returns given => exact ⟨trivial, by rintro ⟨⟩, fun _ _ => given.1⟩
  | breaks => exact ⟨trivial, by rintro ⟨⟩, fun _ runnable => runnable.breaking⟩
  | continues => exact ⟨trivial, by rintro ⟨⟩, fun _ runnable => runnable.continuing⟩
  | noOperands => exact List.forall_mem_nil _
  | operands given values => exact List.forall_mem_cons.mpr ⟨given.1, values⟩
  | noStatements => exact ⟨trivial, fun _ _ => trivial⟩
  | statements given =>
    exact ⟨given.1, fun inLoop runnable => given.2 inLoop (List.forall_mem_cons.mp runnable).2⟩
  | early given =>
    -- a statement that is left early is left as the whole sequence is
    exact ⟨trivial, fun inLoop runnable => given.2.2 inLoop (List.forall_mem_cons.mp runnable).1⟩
  | finished => exact ⟨trivial, trivial⟩
  | returnsFrom given signal =>
    -- the body can return whether it stands in a loop or not
    have returned := given.2.2 true (.statement sound.2.1)
    rw [signal] at returned
    exact ⟨trivial, returned⟩
  | again given => exact given
  | returned given signal =>
    have returned := given.2 false fun node member => .statement (sound.1 node member)
    rw [signal] at returned
    exact returned
  | ended => trivial
  | native given => exact given

theorem signalContract_obeyed : signalContract.Obeyed Effect.Gives Effect.IsSound where
  enter role machine holds := by cases role <;> exact ⟨holds.store, holds.behaviours⟩
  leave role machine holds := by cases role <;> exact ⟨holds.store, holds.behaviours⟩
  effect sound holds := Effect.meets sound holds
  does fits := fits.1.does
  needs fits := fits.1.needs
  yields fits yields := yields.gives fits.1

theorem signalContract_sound : signalContract.Sound := signalContract_obeyed.sound

end Scriptlet
