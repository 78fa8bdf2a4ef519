import Scriptlet.Proofs.Machine.Signals
import Scriptlet.Proofs.Scope.Frames
import Scriptlet.Proofs.Tree.Contained

/-! The scopes in which names are declared: a block and a call have one of their own. -/

set_option autoImplicit false

namespace Scriptlet

open WellFormed

/-! Names that scopes keep -/

/-- Every scope binds the names that it has bound, and no others unless it is one of some. -/
structure Store.KeepsNames (exempt : ScopeId → Prop) (before after : Store) : Prop where
  size : before.size ≤ after.size
  kept : ∀ scope < before.size, ∀ name, before.bindsLocally scope name = true →
    after.bindsLocally scope name = true
  same : ∀ scope < before.size, ¬exempt scope → ∀ name,
    after.bindsLocally scope name = before.bindsLocally scope name

namespace Store.KeepsNames

variable {exempt : ScopeId → Prop} {before after : Store}

theorem refl (store : Store) : KeepsNames exempt store store :=
  ⟨Nat.le_refl _, fun _ _ _ binds => binds, fun _ _ _ _ => rfl⟩

theorem addFrame (keeps : KeepsNames exempt before after) (outer : Option ScopeId) :
    KeepsNames exempt before (after.addFrame outer).2 := by
  have larger := keeps.size
  refine ⟨by simp; omega, fun scope inside name binds => ?_, fun scope inside closed name => ?_⟩
  · rw [bindsLocally_addFrame]
    exact keeps.kept scope inside name binds
  · rw [bindsLocally_addFrame]
    exact keeps.same scope inside closed name

theorem define (keeps : KeepsNames exempt before after) {scope : ScopeId} {name : String}
    (allowed : after.bindsLocally scope name = true ∨ exempt scope ∨ before.size ≤ scope)
    (value : Value) : KeepsNames exempt before (after.define scope name value) := by
  have larger := keeps.size
  refine ⟨by simpa using larger, fun other old bound binds => ?_, fun other old closed bound => ?_⟩
  · rw [bindsLocally_define, keeps.kept other old bound binds, Bool.true_or]
  · rw [bindsLocally_define, ← keeps.same other old closed bound]
    rcases allowed with binds | isExempt | isNew
    · simp only [Bool.or_eq_left_iff_imp, decide_eq_true_eq]
      rintro ⟨rfl, _, rfl⟩
      exact binds
    · have elsewhere : other ≠ scope := fun same => closed (same ▸ isExempt)
      simp [elsewhere]
    · have elsewhere : other ≠ scope := by omega
      simp [elsewhere]

end Store.KeepsNames

/-! Trees that declare names outside of blocks -/

def Node.isBlock : Node → Bool
  | .block .. => true
  | _ => false

/-- A declaration in the scope that a tree is evaluated in, and not in one of a block within it. -/
inductive Node.Declares : Node → Prop where
  | declare {span : Span} {name : String} {value : Node} : Declares (.declare span name value)
  | function {span : Span} {name : String} {parameters : List String} {body : List Node} :
    Declares (.function span name parameters body)
  | within {node child : Node} :
    node.isBlock = false → child ∈ node.children → Declares child → Declares node

/-- An expression whose operands are such expressions in turn. -/
inductive Node.IsOperand : Node → Prop where
  | intro {node : Node} :
    node.isExpression = true → (∀ child ∈ node.children, IsOperand child) → IsOperand node

theorem Node.IsOperand.not_declares {tree : Node} (operand : tree.IsOperand) :
    ¬tree.Declares := by
  induction operand with
  | intro kind _ ih =>
    intro declares
    cases declares with
    | declare => cases kind
    | function => cases kind
    | within _ member declares => exact ih _ member declares

theorem Node.not_declares_of_isBlock {tree : Node} (block : tree.isBlock = true) :
    ¬tree.Declares := by
  intro declares
  cases declares with
  | declare => cases block
  | function => cases block
  | within noBlock => simp [block] at noBlock

/-! The expressions of a program that was read -/

theorem WellFormed.Expression.isOperand {tree : Node} (sound : Expression tree) :
    tree.IsOperand := by
  induction sound with
  | number | string | boolean | nil | reference => exact .intro rfl (by simp [Node.children])
  | assign _ _ value => exact .intro rfl (by simpa [Node.children] using value)
  | unary _ operand => exact .intro rfl (by simpa [Node.children] using operand)
  | binary _ _ left right => exact .intro rfl (by simpa [Node.children] using ⟨left, right⟩)
  | logical _ _ left right => exact .intro rfl (by simpa [Node.children] using ⟨left, right⟩)
  | call _ _ callee arguments =>
    exact .intro rfl (by simpa [Node.children] using ⟨callee, arguments⟩)

/-- What a program is made of: operands, and statements with operands where they take them. -/
def Node.IsPart (tree : Node) : Prop := tree.IsOperand ∨ ∃ inLoop, Runnable inLoop tree

theorem Runnable.children {inLoop : Bool} {tree : Node} (runnable : Runnable inLoop tree) :
    ∀ child ∈ tree.children, child.IsPart := by
  have operand {node : Node} (sound : Expression node) : node.IsPart := .inl sound.isOperand
  have statement {inside : Bool} {node : Node} (sound : Statement inside node) : node.IsPart :=
    .inr ⟨inside, .statement sound⟩
  cases tree with
  | declare => simpa [Node.children] using operand runnable.declare
  | function => exact fun child member => statement (runnable.function child member)
  | block => exact fun child member => .inr ⟨inLoop, runnable.block child member⟩
  | branch =>
    obtain ⟨condition, thenBranch, elseBranch⟩ := runnable.branch
    simp only [Node.children, List.forall_mem_cons, Option.mem_toList]
    exact ⟨operand condition, .inr ⟨inLoop, thenBranch⟩,
      fun child member => .inr ⟨inLoop, elseBranch child member⟩⟩
  | loop =>
    obtain ⟨condition, body, increment⟩ := runnable.loop
    simp only [Node.children, List.forall_mem_cons, Option.mem_toList]
    exact ⟨operand condition, statement body, fun child member => operand (increment child member)⟩
  | «return» =>
    simp only [Node.children, Option.mem_toList]
    exact fun child member => operand (runnable.returning child member)
  | program => exact absurd runnable Runnable.not_program
  | «break» | «continue» => simp [Node.children]
  | _ =>
    -- what is left are expressions
    intro child member
    cases (runnable.expression rfl).isOperand with
    | intro _ operands => exact .inl (operands child member)

theorem Node.Contains.isOperand {source : List Char} {tree node : Node}
    (contains : tree.Contains node) (read : readProgram source = .ok tree)
    (kind : node.isExpression = true) : node.IsOperand := by
  have part : node.IsPart ∨ node = tree := by
    clear kind
    induction contains with
    | self => exact .inr rfl
    | child _ member ih =>
      left
      rcases ih with (operand | ⟨inLoop, runnable⟩) | rfl
      · cases operand with
        | intro _ operands => exact .inl (operands _ member)
      · exact runnable.children _ member
      · cases Program.of_readProgram read with
        | program statements => exact .inr ⟨false, .statement (statements _ member)⟩
  rcases part with (operand | ⟨inLoop, runnable⟩) | rfl
  · exact operand
  · exact (runnable.expression kind).isOperand
  · cases Program.of_readProgram read
    cases kind

/-! Evaluation declares names where its tree does, and in new scopes -/

def Task.Declares : Task → ScopeId → Prop
  | node tree scope, other => other = scope ∧ tree.Declares
  | operands nodes scope, other => other = scope ∧ ∃ tree ∈ nodes, tree.Declares
  | statements nodes scope, other => other = scope ∧ ∃ tree ∈ nodes, tree.Declares
  | rounds condition body increment scope, other =>
    other = scope ∧ ∃ tree ∈ condition :: body :: increment.toList, tree.Declares
  | call .., _ => False

section

variable (start : Store) (exempt : ScopeId → Prop)

/-- A scope in which names may be declared: an exempt one, or one that has not been there. -/
def Store.Admits (scope : ScopeId) : Prop := exempt scope ∨ start.size ≤ scope

def nameContract : Contract where
  holds machine := start.KeepsNames exempt machine.store
  fits _ task := ∀ scope, task.Declares scope → start.Admits exempt scope
  fulfils _ _ := True

end

section

variable {start : Store} {exempt : ScopeId → Prop}

namespace Effect

def Allowed (start : Store) (exempt : ScopeId → Prop) : Effect → Prop
  | define scope _ _ => start.Admits exempt scope
  | _ => True

def Opens (start : Store) (exempt : ScopeId → Prop) : (change : Effect) → change.Result → Prop
  | openScope _, inner => start.Admits exempt inner
  | _, _ => True

theorem meets_names {change : Effect} (allowed : change.Allowed start exempt) {machine : Machine}
    (keeps : start.KeepsNames exempt machine.store) :
    (change.run machine).Meets
      (fun result after =>
        start.KeepsNames exempt after.store ∧ change.Opens start exempt result)
      fun _ after => start.KeepsNames exempt after.store := by
  apply (change.meets_run machine).mono
  · intro result after done
    cases done with
    | assign found => exact ⟨keeps.define (.inl (Store.bindsLocally_of_owner? found)) _, trivial⟩
    | define => exact ⟨keeps.define (.inr allowed) _, trivial⟩
    | openScope => exact ⟨keeps.addFrame _, .inr keeps.size⟩
    | _ => exact ⟨keeps, trivial⟩
  · intro error after fails
    cases fails <;> exact keeps

end Effect

theorem Node.not_isBlock_of_operand {tree child : Node} (member : child ∈ tree.operands) :
    tree.isBlock = false := by
  cases tree with
  | block => cases member
  | _ => rfl

namespace Task

variable {task : Task}

theorem allowed_of_does {change : Effect}
    (fits : ∀ scope, task.Declares scope → start.Admits exempt scope)
    (does : task.Does ⟨Effect.Opens start exempt, fun _ _ => True⟩ change) :
    change.Allowed start exempt := by
  cases does with
  | declare => exact fits _ ⟨rfl, .declare⟩
  | function => exact fits _ ⟨rfl, .function⟩
  | bind admits => exact admits
  | _ => trivial

theorem admits_of_needs {role : Role} {part : Task}
    (fits : ∀ scope, task.Declares scope → start.Admits exempt scope)
    (needs : task.Needs ⟨Effect.Opens start exempt, fun _ _ => True⟩ role part) :
    ∀ scope, part.Declares scope → start.Admits exempt scope := by
  cases needs with
  | operand member =>
    rintro _ ⟨rfl, declares⟩
    exact fits _ ⟨rfl, .within (Node.not_isBlock_of_operand member)
      (Node.operands_subset _ member) declares⟩
  | arguments =>
    rintro _ ⟨rfl, node, member, declares⟩
    exact fits _ ⟨rfl, .within rfl (List.mem_cons_of_mem _ member) declares⟩
  | call => exact fun _ declares => declares.elim
  | block admits =>
    rintro _ ⟨rfl, _⟩
    exact admits
  | thenBranch =>
    rintro _ ⟨rfl, declares⟩
    exact fits _ ⟨rfl, .within rfl (by simp [Node.children]) declares⟩
  | elseBranch =>
    rintro _ ⟨rfl, declares⟩
    exact fits _ ⟨rfl, .within rfl (by simp [Node.children]) declares⟩
  | loop =>
    rintro _ ⟨rfl, node, member, declares⟩
    exact fits _ ⟨rfl, .within rfl member declares⟩
  | program =>
    rintro _ ⟨rfl, node, member, declares⟩
    exact fits _ ⟨rfl, .within rfl member declares⟩
  | firstOperand =>
    rintro _ ⟨rfl, declares⟩
    exact fits _ ⟨rfl, _, List.mem_cons_self, declares⟩
  | operands =>
    rintro _ ⟨rfl, node, member, declares⟩
    exact fits _ ⟨rfl, node, List.mem_cons_of_mem _ member, declares⟩
  | firstStatement =>
    rintro _ ⟨rfl, declares⟩
    exact fits _ ⟨rfl, _, List.mem_cons_self, declares⟩
  | statements =>
    rintro _ ⟨rfl, node, member, declares⟩
    exact fits _ ⟨rfl, node, List.mem_cons_of_mem _ member, declares⟩
  | condition =>
    rintro _ ⟨rfl, declares⟩
    exact fits _ ⟨rfl, _, by simp, declares⟩
  | round =>
    rintro _ ⟨rfl, declares⟩
    exact fits _ ⟨rfl, _, by simp, declares⟩
  | increment =>
    rintro _ ⟨rfl, declares⟩
    exact fits _ ⟨rfl, _, by simp, declares⟩
  | rounds => exact fits
  | body admits =>
    -- parameters are bound in the new scope, and the body is run there
    rintro _ ⟨rfl, _⟩
    exact admits

end Task

theorem nameContract_obeyed : (nameContract start exempt).Obeyed (Effect.Opens start exempt)
    (Effect.Allowed start exempt) where
  enter role machine holds := by cases role <;> exact holds
  leave role machine holds := by cases role <;> exact holds
  effect allowed holds := (Effect.meets_names allowed holds).imp fun _ _ meets => meets.symm
  does fits := Task.allowed_of_does fits
  needs fits := Task.admits_of_needs fits
  yields _ _ := trivial

theorem nameContract_sound : (nameContract start exempt).Sound := nameContract_obeyed.sound

end

/-! Scopes do not leak -/

/-- Names are declared by statements, in the scope that these are evaluated in, and nowhere else.
Whatever is evaluated, and however it ends, every scope that was there binds the names that it has
bound. It binds no others, except that a tree which is neither a block nor an expression, made of
expressions, can add to the scope that it is evaluated in. The expressions within a program are all
made of expressions. -/
theorem Evaluation.names_stay_in_their_scopes (fuel : Nat) (machine : Machine) :
    (∀ tree scope, (evaluate fuel tree scope machine).Meets
      (fun _ after => machine.store.KeepsNames
        (fun other => other = scope ∧ ¬tree.IsOperand ∧ tree.isBlock = false) after.store)
      fun _ after => machine.store.KeepsNames
        (fun other => other = scope ∧ ¬tree.IsOperand ∧ tree.isBlock = false) after.store) ∧
    (∀ callee arguments span, (call fuel callee arguments span machine).Meets
      (fun _ after => machine.store.KeepsNames (fun _ => False) after.store)
      fun _ after => machine.store.KeepsNames (fun _ => False) after.store) ∧
    ∀ source tree node, readProgram source = .ok tree → tree.Contains node →
      node.isExpression = true → node.IsOperand := by
  refine ⟨fun tree scope => ?_, fun callee arguments span => ?_, ?_⟩
  · have fits : ∀ other, (Task.node tree scope).Declares other →
        machine.store.Admits
          (fun other => other = scope ∧ ¬tree.IsOperand ∧ tree.isBlock = false) other := by
      rintro _ ⟨rfl, declares⟩
      refine .inl ⟨rfl, fun operand => operand.not_declares declares, ?_⟩
      cases block : tree.isBlock with
      | false => rfl
      | true => exact absurd declares (tree.not_declares_of_isBlock block)
    exact (nameContract_sound.run fuel .part _ machine fits (.refl _)).imp fun _ _ meets => meets.2
  · have fits : ∀ other, (Task.call callee arguments span).Declares other →
        machine.store.Admits (fun _ => False) other := fun _ declares => declares.elim
    exact (nameContract_sound.run fuel .part _ machine fits (.refl _)).imp fun _ _ meets => meets.2
  · exact fun source tree node read contains kind => contains.isOperand read kind

end Scriptlet
