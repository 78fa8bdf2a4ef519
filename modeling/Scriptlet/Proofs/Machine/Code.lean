import Scriptlet.Proofs.Machine.Plain
import Scriptlet.Proofs.Machine.Preservation
import Scriptlet.Proofs.Tree.Contained

/-! Evaluation stays within known code. What it does to a machine it does on behalf of a node that is
known, and the functions it makes hold nothing else.
-/

set_option autoImplicit false

namespace Scriptlet

/-- Nodes that may be evaluated, with all that is within them. Some scopes are known to have been
opened on the way. -/
structure Code where
  known : Node → Prop
  closed : ∀ {node : Node}, known node → ∀ child ∈ node.children, known child
  opened : ScopeId → Prop

/-! Values and tasks -/

def Value.IsKnown (known : Node → Prop) : Value → Prop
  | .closure made => ∀ node ∈ made.body, known node
  | _ => True

theorem Value.IsPlain.isKnown {value : Value} (plain : value.IsPlain) (known : Node → Prop) :
    value.IsKnown known := by
  cases value with
  | closure made => cases plain
  | _ => trivial

theorem Value.IsKnown.mono {value : Value} {known later : Node → Prop} (isKnown : value.IsKnown known)
    (before : ∀ node, known node → later node) : value.IsKnown later := by
  cases value with
  | closure made => exact fun node member => before node (isKnown node member)
  | _ => trivial

def Signal.IsKnown (known : Node → Prop) : Signal → Prop
  | .returned value => value.IsKnown known
  | _ => True

structure Completion.IsKnown (known : Node → Prop) (completion : Completion) : Prop where
  value : completion.value.IsKnown known
  signal : completion.signal.IsKnown known

def IsCalled (known : Node → Prop) (span : Span) : Prop :=
  ∃ callee arguments, known (.call span callee arguments)

def Task.IsKnown (known : Node → Prop) : Task → Prop
  | node tree _ => known tree
  | operands nodes _ => ∀ node ∈ nodes, known node
  | statements nodes _ => ∀ node ∈ nodes, known node
  | rounds condition body increment _ =>
    known condition ∧ known body ∧ ∀ step ∈ increment, known step
  | call callee arguments span =>
    callee.IsKnown known ∧ (∀ value ∈ arguments, Value.IsKnown known value) ∧ IsCalled known span

def Task.GivesKnown (known : Node → Prop) : (task : Task) → task.Result → Prop
  | node .., completion => completion.IsKnown known
  | operands .., values => ∀ value ∈ values, Value.IsKnown known value
  | statements .., completion => completion.IsKnown known
  | rounds .., completion => completion.IsKnown known
  | call .., value => value.IsKnown known

/-! Effects and plans -/

def Node.Binds (name : String) : Node → Prop
  | declare _ bound _ => bound = name
  | function _ bound _ _ => bound = name
  | _ => False

/-- An effect on behalf of a known node, given known values. Other names than those of declarations
are defined in scopes that have been opened for them. -/
def Effect.IsKnown (code : Code) : Effect → Prop
  | lookUp _ name span => code.known (.reference span name)
  | assign _ name value span =>
    value.IsKnown code.known ∧ ∃ node, code.known (.assign span name node)
  | define scope name value =>
    value.IsKnown code.known ∧ (code.opened scope ∨ ∃ node, code.known node ∧ node.Binds name)
  | openScope _ => True
  | makeClosure _ _ body _ => ∀ node ∈ body, code.known node
  | applyUnary op _ span => ∃ operand, code.known (.unary span op operand)
  | applyBinary op _ _ span => ∃ left right, code.known (.binary span op left right)
  | refuse _ span => IsCalled code.known span
  | checkArity _ _ _ span => IsCalled code.known span
  | checkDepth span => IsCalled code.known span
  | callNative _ arguments span =>
    (∀ value ∈ arguments, Value.IsKnown code.known value) ∧ IsCalled code.known span

def Effect.GivesKnown (code : Code) : (change : Effect) → change.Result → Prop
  | lookUp .., value => value.IsKnown code.known
  | openScope _, scope => code.opened scope
  | makeClosure .., made => Value.IsKnown code.known (.closure made)
  | applyUnary .., value => value.IsKnown code.known
  | applyBinary .., value => value.IsKnown code.known
  | callNative .., value => value.IsKnown code.known
  | _, _ => True

def Code.answers (code : Code) : Answers := ⟨Effect.GivesKnown code, Task.GivesKnown code.known⟩

/-- A plan that deals with known code alone, as long as what comes back to it does. -/
def Plan.KeepsToCode (code : Code) {α : Type} (good : α → Prop) (plan : Plan α) : Prop :=
  plan.Keeps code.answers (Effect.IsKnown code) (fun _ part => part.IsKnown code.known) good

section

variable {code : Code}

namespace Task.IsKnown

variable {task : Task}

theorem does {change : Effect} (isKnown : task.IsKnown code.known)
    (does : task.Does code.answers change) : change.IsKnown code := by
  cases does with
  | lookUp => exact isKnown
  | assign given => exact ⟨given.value, _, isKnown⟩
  | declare given => exact ⟨given.value, .inr ⟨_, isKnown, rfl⟩⟩
  | unary => exact ⟨_, isKnown⟩
  | binary => exact ⟨_, _, isKnown⟩
  | notCallable => exact ⟨_, _, isKnown⟩
  | makeClosure => exact code.closed isKnown
  | function isMade => exact ⟨isMade, .inr ⟨_, isKnown, rfl⟩⟩
  | block => trivial
  | closureArity => exact isKnown.2.2
  | depth => exact isKnown.2.2
  | closureScope => trivial
  | bind opened member => exact ⟨isKnown.2.1 _ member, .inl opened⟩
  | nativeArity => exact isKnown.2.2
  | native => exact isKnown.2
  | refuse => exact isKnown.2.2

theorem needs {role : Role} {part : Task} (isKnown : task.IsKnown code.known)
    (needs : task.Needs code.answers role part) : part.IsKnown code.known := by
  cases needs with
  | operand member => exact code.closed isKnown _ (Node.operands_subset _ member)
  | arguments => exact fun node member => code.closed isKnown node (List.mem_cons_of_mem _ member)
  | call given values => exact ⟨given.value, values, _, _, isKnown⟩
  | block => exact code.closed isKnown
  | thenBranch => exact code.closed isKnown _ (by simp [Node.children])
  | elseBranch => exact code.closed isKnown _ (by simp [Node.children])
  | loop =>
    have inside := code.closed isKnown
    simp only [Node.children, List.forall_mem_cons, Option.mem_toList] at inside
    exact inside
  | program => exact code.closed isKnown
  | firstOperand => exact isKnown _ List.mem_cons_self
  | operands => exact fun node member => isKnown node (List.mem_cons_of_mem _ member)
  | firstStatement => exact isKnown _ List.mem_cons_self
  | statements => exact fun node member => isKnown node (List.mem_cons_of_mem _ member)
  | condition => exact isKnown.1
  | round => exact isKnown.2.1
  | increment => exact isKnown.2.2 _ rfl
  | rounds => exact isKnown
  | body => exact isKnown.1

end Task.IsKnown

theorem Node.ComesTo.isKnown {scope : ScopeId} {tree : Node} {value : Value}
    (comesTo : tree.ComesTo code.answers scope value) : value.IsKnown code.known := by
  cases comesTo with
  | reference found => exact found
  | assign given => exact given.value
  | unary applied => exact applied
  | binary applied => exact applied
  | left given => exact given.value
  | right given => exact given.value
  | call given => exact given
  | _ => trivial

theorem Task.Yields.givesKnown {task : Task} {result : task.Result}
    (yields : task.Yields code.answers result) : task.GivesKnown code.known result := by
  cases yields with
  | node comesTo => exact ⟨comesTo.isKnown, trivial⟩
  | block given => exact given
  | thenBranch given => exact given
  | elseBranch given => exact given
  | loop given => exact given
  | program given => exact given
  | returnsNil => exact ⟨trivial, trivial⟩
  | returns given => exact ⟨trivial, given.value⟩
  | breaks => exact ⟨trivial, trivial⟩
  | continues => exact ⟨trivial, trivial⟩
  | noOperands => exact List.forall_mem_nil _
  | operands given values => exact List.forall_mem_cons.mpr ⟨given.value, values⟩
  | noStatements => exact ⟨trivial, trivial⟩
  | statements given => exact given
  | early given => exact ⟨trivial, given.signal⟩
  | finished => exact ⟨trivial, trivial⟩
  | returnsFrom given signal => exact ⟨trivial, signal ▸ given.signal⟩
  | again given => exact given
  | returned given signal =>
    have returned := given.signal
    rw [signal] at returned
    exact returned
  | ended => trivial
  | native given => exact given

theorem Task.keepsToCode_plan {task : Task} (isKnown : task.IsKnown code.known) :
    task.plan.KeepsToCode code (task.GivesKnown code.known) :=
  task.keeps_plan.imp (fun _ => isKnown.does) (fun _ _ => isKnown.needs)
    fun _ yields => yields.givesKnown

theorem Plan.keepsToCode_program {statements : List Node}
    (isKnown : ∀ statement ∈ statements, code.known statement) (last : Option Value) :
    (program statements last).KeepsToCode code fun _ => True :=
  keeps_program isKnown last

/-! What effects on behalf of known code keep -/

structure Code.Keeps (code : Code) (holds : Machine → Prop) : Prop where
  enter : ∀ (role : Role) (machine : Machine), holds machine → holds (role.enter machine)
  leave : ∀ (role : Role) (machine : Machine), holds machine → holds (role.leave machine)
  effect : ∀ {change : Effect} {machine : Machine}, change.IsKnown code → holds machine →
    (change.run machine).Meets (fun result after => change.GivesKnown code result ∧ holds after)
      fun _ after => holds after

def Code.contract (code : Code) (holds : Machine → Prop) : Contract where
  holds := holds
  fits _ task := task.IsKnown code.known
  fulfils := Task.GivesKnown code.known

theorem Plan.KeepsToCode.follows {holds : Machine → Prop} (keeps : code.Keeps holds) {α : Type}
    {good : α → Prop} {plan : Plan α} (keepsToCode : plan.KeepsToCode code good) :
    plan.Follows (code.contract holds) (Effect.IsKnown code) good :=
  Keeps.follows keeps.effect keepsToCode

theorem Code.Keeps.follows {holds : Machine → Prop} (keeps : code.Keeps holds) (role : Role)
    (task : Task) (fits : (code.contract holds).fits role task) :
    task.plan.Follows (code.contract holds) (Effect.IsKnown code) (task.GivesKnown code.known) :=
  (Task.keepsToCode_plan fits).follows keeps

theorem Code.Keeps.sound {holds : Machine → Prop} (keeps : code.Keeps holds) :
    (code.contract holds).Sound where
  enter := keeps.enter
  leave := keeps.leave
  plan role task fits := (keeps.follows role task fits).respects

end

end Scriptlet
