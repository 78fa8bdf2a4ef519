import Scriptlet.Proofs.Machine.Code
import Scriptlet.Proofs.Machine.Request
import Scriptlet.Proofs.Scope.Apart

/-! What a program does not mention does not matter to it, and is left alone.

A program is run twice, in machines that differ in what the root scope itself binds to a name. As long
as no function that could be called mentions the name either, no lookup comes to that binding, and
nothing is written to it; parameters of that name are bound in scopes of their own.
-/

set_option autoImplicit false

namespace Scriptlet

/-! Machines that known code cannot tell apart -/

/-- Effects on behalf of known code come to the same in machines that go together. -/
structure Code.Confuses (code : Code) (machines : Machine → Machine → Prop) : Prop where
  enter : ∀ {a b : Machine} (role : Role), machines a b → machines (role.enter a) (role.enter b)
  leave : ∀ {a b : Machine} (role : Role), machines a b → machines (role.leave a) (role.leave b)
  effect : ∀ {change : Effect} {a b : Machine}, change.IsKnown code → machines a b →
    Outcome.Pairs (fun x y a b => x = y ∧ change.GivesKnown code x ∧ machines a b) machines
      (fun _ => False) (change.run a) (change.run b)

namespace Code.Confuses

variable {code : Code} {machines : Machine → Machine → Prop} {a b : Machine}

theorem plan (confuses : code.Confuses machines) {fuel : Nat}
    (tasks : ∀ {task : Task} {a b : Machine}, task.IsKnown code.known → machines a b →
      Outcome.Pairs (fun x y a b => x = y ∧ task.GivesKnown code.known x ∧ machines a b) machines
        (fun _ => False) (task.run fuel a) (task.run fuel b))
    {α : Type} {good : α → Prop} {plan : Plan α} (keepsToCode : plan.KeepsToCode code good)
    (together : machines a b) :
    Outcome.Pairs (fun x y a b => x = y ∧ good x ∧ machines a b) machines (fun _ => False)
      (plan.run fuel a) (plan.run fuel b) := by
  -- on the plan, which is the same on both sides as long as what comes back is
  induction plan generalizing a b with
  | done value => exact ⟨value, b, rfl, rfl, keepsToCode, together⟩
  | effect change next ih =>
    obtain ⟨isKnown, later⟩ := keepsToCode
    apply Action.pairs_bind (confuses.effect isKnown together)
    rintro x _ reached there ⟨rfl, gives, machines⟩
    exact ih x (later x gives) machines
  | task role part next ih =>
    obtain ⟨isKnown, later⟩ := keepsToCode
    have inside : Outcome.Pairs
        (fun x y a b => x = y ∧ part.GivesKnown code.known x ∧ machines a b) machines
        (fun _ => False) (role.around (part.run fuel) a) (role.around (part.run fuel) b) := by
      apply Action.pairs_around
      apply (tasks isKnown (confuses.enter role together)).mono
      · rintro x y reached there ⟨same, gives, machines⟩
        exact ⟨same, gives, confuses.leave role machines⟩
      · exact fun reached there machines => confuses.leave role machines
    apply Action.pairs_bind inside
    rintro x _ reached there ⟨rfl, gives, machines⟩
    exact ih x (later x gives) machines

theorem run (confuses : code.Confuses machines) (fuel : Nat) {task : Task}
    (isKnown : task.IsKnown code.known) (together : machines a b) :
    Outcome.Pairs (fun x y a b => x = y ∧ task.GivesKnown code.known x ∧ machines a b) machines
      (fun _ => False) (task.run fuel a) (task.run fuel b) := by
  induction fuel generalizing task a b with
  | zero =>
    rw [Task.run_zero, Task.run_zero]
    rfl
  | succ fuel ih =>
    rw [Task.run_succ]
    exact confuses.plan ih (Task.keepsToCode_plan isKnown) together

theorem execute (confuses : code.Confuses machines) (fuel : Nat) {tree : Node}
    (isKnown : ∀ statement ∈ tree.toplevel, code.known statement) (together : machines a b) :
    Outcome.Pairs (fun x y a b => x = y ∧ machines a b) machines (fun _ => False)
      (Evaluation.execute fuel tree a) (Evaluation.execute fuel tree b) := by
  rw [Evaluation.execute_eq, ← Plan.run_program]
  apply (confuses.plan (confuses.run fuel) (Plan.keepsToCode_program isKnown none) together).mono
  · exact fun x y a b meets => ⟨meets.1, meets.2.2⟩
  · exact fun a b machines => machines

end Code.Confuses

/-! Trees that do not mention a name -/

def Node.names : Node → List String
  | .reference _ name => [name]
  | .assign _ name _ => [name]
  | .declare _ name _ => [name]
  | .function _ name parameters _ => name :: parameters
  | _ => []

def Node.Omits (name : String) (tree : Node) : Prop := tree.All fun node => name ∉ node.names

namespace Node.Omits

variable {name : String} {tree : Node}

theorem child (omits : tree.Omits name) : ∀ child ∈ tree.children, child.Omits name :=
  fun _ member node contains => omits node (.of_child member contains)

theorem ne_of_binds (omits : tree.Omits name) {bound : String} (binds : tree.Binds bound) :
    bound ≠ name := by
  have own := omits tree .self
  rintro rfl
  cases tree <;> simp_all [Node.Binds, Node.names]

theorem toplevel (omits : tree.Omits name) : ∀ statement ∈ tree.toplevel, statement.Omits name := by
  intro statement member
  cases tree with
  | program => exact omits.child statement member
  | _ =>
    cases List.mem_singleton.mp member
    exact omits

end Node.Omits

abbrev Value.Omits (name : String) : Value → Prop := Value.IsKnown (Node.Omits name)

/-- A function of the host that is told no function which mentions a name gives none back. -/
def Behaviour.Omits (name : String) (behaviour : Behaviour) : Prop :=
  ∀ arguments span host, (∀ value ∈ arguments, Value.Omits name value) →
    (behaviour arguments span host).Meets (fun value _ => value.Omits name) fun _ _ => True

/-- A machine with a root scope in which no function mentions a name, unless it is what the root scope
itself binds to the name. -/
structure Machine.Omits (name : String) (machine : Machine) : Prop where
  rooted : 0 < machine.store.size
  store : machine.store.AllBut (Value.Omits name) root name
  behaviours : ∀ behaviour ∈ machine.behaviours, Behaviour.Omits name behaviour

namespace Machine.Omits

variable {name : String} {machine : Machine}

theorem define (omits : machine.Omits name) (scope : ScopeId) (bound : String) {value : Value}
    (known : value.Omits name) :
    Machine.Omits name { machine with store := machine.store.define scope bound value } where
  rooted := by simpa using omits.rooted
  store := omits.store.define scope bound known
  behaviours := omits.behaviours

theorem addFrame (omits : machine.Omits name) (outer : Option ScopeId) :
    Machine.Omits name { machine with store := (machine.store.addFrame outer).2 } where
  rooted := by simp
  store := omits.store.addFrame outer
  behaviours := omits.behaviours

theorem withStore (omits : machine.Omits name) {other : Machine}
    (store : other.store = machine.store) (behaviours : other.behaviours = machine.behaviours) :
    other.Omits name where
  rooted := by rw [store]; exact omits.rooted
  store := by rw [store]; exact omits.store
  behaviours := by rw [behaviours]; exact omits.behaviours

end Machine.Omits

theorem Behaviour.IsPlain.omits {behaviour : Behaviour} (plain : behaviour.IsPlain) (name : String) :
    behaviour.Omits name :=
  fun arguments span host _ =>
    (plain arguments span host).mono (fun _ _ plain => plain.isKnown _) fun _ _ _ => trivial

theorem Machine.start_omits (name : String) (limit : Nat) (sink : Sink) (clock : Clock) :
    (start limit sink clock).Omits name := by
  refine start_induction ⟨Nat.zero_lt_one, ?_, by simp⟩ ?_
  · intro scope bound value _ own
    rw [Store.own?_addFrame] at own
    cases own
  · intro machine added arity behaviour omits plain
    refine ⟨?_, omits.store.define root added trivial, fun other member => ?_⟩
    · simpa [register] using omits.rooted
    · rcases Array.mem_push.mp member with old | rfl
      · exact omits.behaviours other old
      · exact plain.omits name

/-- Two machines that are the same but for what the root scope itself binds to a name. -/
def Machine.Apart (name : String) (first second : Option Value) (machine other : Machine) : Prop :=
  ∃ store, other = { machine with store := store } ∧
    machine.store.Apart root name first second store

/-- The trees in which a name does not occur. All scopes that are opened are others than the root. -/
def Code.omitting (name : String) : Code where
  known := Node.Omits name
  closed := Node.Omits.child
  opened scope := scope ≠ Machine.root

section

variable {name : String} {first second : Option Value}

theorem Evaluation.pairs_ofExcept {a b : Machine} {machines : Machine → Machine → Prop}
    (together : machines a b) {known : Node → Prop} {result : Except RuntimeError Value}
    (isKnown : ∀ value, result = .ok value → value.IsKnown known) :
    Outcome.Pairs (fun x y a b => x = y ∧ x.IsKnown known ∧ machines a b) machines
      (fun _ => False) (ofExcept result a) (ofExcept result b) := by
  cases result with
  | ok value => exact ⟨value, b, rfl, rfl, isKnown value rfl, together⟩
  | error error => exact .inr ⟨b, rfl, together⟩

theorem Effect.confuses {change : Effect} (isKnown : change.IsKnown (.omitting name))
    {machine : Machine} (omits : machine.Omits name) {other : Store}
    (apart : machine.store.Apart Machine.root name first second other) :
    Outcome.Pairs
      (fun x y a b => x = y ∧ change.GivesKnown (.omitting name) x ∧
        a.Omits name ∧ a.Apart name first second b)
      (fun a b => a.Omits name ∧ a.Apart name first second b) (fun _ => False)
      (change.run machine) (change.run { machine with store := other }) := by
  have together : machine.Omits name ∧
      machine.Apart name first second { machine with store := other } := ⟨omits, other, rfl, apart⟩
  cases change with
  | lookUp scope bound span =>
    -- the name that is looked up is mentioned, so it is another one
    have unlike : bound ≠ name := fun same => isKnown _ .self (by simp [Node.names, same])
    unfold Effect.run Evaluation.lookUp
    dsimp only
    rw [apart.get_eq unlike]
    cases found : machine.store.get scope bound span with
    | ok value => exact ⟨value, _, rfl, rfl, omits.store.of_get unlike found, together⟩
    | error error => exact .inr ⟨_, rfl, together⟩
  | assign scope bound value span =>
    obtain ⟨known, node, isKnown⟩ := isKnown
    have unlike : bound ≠ name := fun same => isKnown _ .self (by simp [Node.names, same])
    unfold Effect.run Evaluation.assign
    dsimp only
    rw [apart.owner?_eq unlike]
    cases machine.store.owner? scope bound with
    | some owner =>
      exact ⟨(), _, rfl, rfl, trivial, omits.define owner bound known, _, rfl,
        apart.define (.inr unlike) value⟩
    | none => exact .inr ⟨_, rfl, together⟩
  | define scope bound value =>
    obtain ⟨known, allowed⟩ := isKnown
    have unlike : scope ≠ Machine.root ∨ bound ≠ name :=
      allowed.imp id fun ⟨node, isKnown, binds⟩ => Node.Omits.ne_of_binds isKnown binds
    exact ⟨(), _, rfl, rfl, trivial, omits.define scope bound known, _, rfl,
      apart.define unlike value⟩
  | openScope outer =>
    -- the root is there from the start, so no scope that is opened is the root
    have isInner : machine.store.size ≠ Machine.root := Nat.ne_of_gt omits.rooted
    exact ⟨other.size, { machine with store := (other.addFrame (some outer)).2 }, rfl,
      apart.size.symm, isInner, omits.addFrame (some outer), _, rfl, apart.addFrame (some outer)⟩
  | makeClosure bound parameters body scope =>
    exact ⟨_, _, rfl, rfl, isKnown, omits.withStore rfl rfl, other, rfl, apart⟩
  | applyUnary op operand span =>
    exact Evaluation.pairs_ofExcept together fun value applied =>
      (UnaryOp.isPlain_of_apply applied).isKnown _
  | applyBinary op left right span =>
    exact Evaluation.pairs_ofExcept together fun value applied =>
      (BinaryOp.isPlain_of_apply applied).isKnown _
  | refuse callee span => exact .inr ⟨_, rfl, together⟩
  | checkArity bound expected found span =>
    rw [Effect.run, Evaluation.checkArity]
    split
    · exact ⟨(), _, rfl, rfl, trivial, together⟩
    · exact .inr ⟨_, rfl, together⟩
  | checkDepth span =>
    unfold Effect.run Evaluation.checkDepth
    dsimp only
    split
    · exact .inr ⟨_, rfl, together⟩
    · exact ⟨(), _, rfl, rfl, trivial, together⟩
  | callNative native arguments span =>
    unfold Effect.run Evaluation.callNative
    dsimp only
    cases known : machine.behaviours[native.identity]? with
    | none => exact .inr ⟨_, rfl, together⟩
    | some behaviour =>
      have gives := omits.behaviours behaviour (Array.mem_of_getElem? known) arguments span
        machine.host isKnown.1
      dsimp only
      cases outcome : behaviour arguments span machine.host with
      | done value host =>
        rw [outcome] at gives
        exact ⟨value, _, rfl, rfl, gives, omits.withStore rfl rfl, other, rfl, apart⟩
      | failed error host => exact .inr ⟨_, rfl, omits.withStore rfl rfl, other, rfl, apart⟩
      | cutOff => rfl

/-- Machines that are apart in what the root scope binds to a name, and mention it nowhere else. -/
theorem Code.omitting_confuses :
    (Code.omitting name).Confuses fun a b => a.Omits name ∧ a.Apart name first second b where
  enter role together := by
    obtain ⟨omits, other, rfl, apart⟩ := together
    cases role <;> exact ⟨omits.withStore rfl rfl, other, rfl, apart⟩
  leave role together := by
    obtain ⟨omits, other, rfl, apart⟩ := together
    cases role <;> exact ⟨omits.withStore rfl rfl, other, rfl, apart⟩
  effect isKnown together := by
    obtain ⟨omits, other, rfl, apart⟩ := together
    exact Effect.confuses isKnown omits apart

/-- A program neither reads nor writes a name that it does not mention. If no function that is bound
in a machine, and none that the host hands out, mentions the name either, then a run comes to the same
value or error and the same output whatever the root scope binds to the name, and leaves that binding
as it was. The binding itself may hold a function that mentions the name. -/
theorem Machine.omitted_name_does_not_matter {machine other : Machine} (omits : machine.Omits name)
    (apart : machine.Apart name first second other) (fuel : Nat) {source : List Char}
    (unmentioned : ∀ tree, readProgram source = .ok tree → tree.Omits name) :
    Outcome.Pairs
      (fun x y a b => x = y ∧ a.Omits name ∧ a.Apart name first second b)
      (fun a b => a.Omits name ∧ a.Apart name first second b) (fun _ => False)
      (machine.run fuel source) (other.run fuel source) := by
  rw [run, run]
  cases read : readProgram source with
  | error error => exact .inr ⟨other, rfl, omits, apart⟩
  | ok tree =>
    have known := (unmentioned tree read).toplevel
    have pairs := Code.omitting_confuses.execute fuel known ⟨omits, apart⟩
    exact pairs.mapError Failure.runtime

end

def Node.declaresNil : Node → Bool
  | .program _ [.declare _ name (.nil _)] => name == "y"
  | _ => false

theorem Node.omits_of_declaresNil {tree : Node} (declares : tree.declaresNil = true) :
    tree.Omits "x" := by
  unfold declaresNil at declares
  split at declares
  · next name _ =>
    have same : name = "y" := by simpa using declares
    refine .intro (by simp [names]) (List.forall_mem_singleton.mpr ?_)
    refine .intro (by simp [names, same]) (List.forall_mem_singleton.mpr ?_)
    exact .intro (by simp [names]) (List.forall_mem_nil _)
  · cases declares

/-- A declaration where another name is not bound, and where it is. -/
theorem declaration_does_not_ask_for_other :
    ∃ machine other : Machine, machine.Omits "x" ∧ machine.Apart "x" none (some .nil) other ∧
      (∃ tree, readProgram "let y = nil;".toList = .ok tree) ∧
      (∀ tree, readProgram "let y = nil;".toList = .ok tree → tree.Omits "x") ∧
      Outcome.Pairs
        (fun x y a b => x = y ∧ a.Omits "x" ∧ a.Apart "x" none (some .nil) b)
        (fun a b => a.Omits "x" ∧ a.Apart "x" none (some .nil) b) (fun _ => False)
        (machine.run 9 "let y = nil;".toList) (other.run 9 "let y = nil;".toList) := by
  let machine := Machine.start 4 .unlimited ⟨fun _ => some 0⟩
  have omits : machine.Omits "x" := Machine.start_omits "x" 4 .unlimited ⟨fun _ => some 0⟩
  have unbound : machine.store.own? Machine.root "x" = none := by
    have isNone : (machine.store.own? Machine.root "x").isNone = true := by decide +kernel
    exact Option.isNone_iff_eq_none.mp isNone
  have apart : machine.Apart "x" none (some .nil)
      { machine with store := machine.store.define Machine.root "x" .nil } :=
    ⟨_, rfl, unbound ▸ .of_define omits.rooted .nil⟩
  have shape : (readProgram "let y = nil;".toList).toOption.map Node.declaresNil = some true := by
    decide +kernel
  have unmentioned : ∀ tree, readProgram "let y = nil;".toList = .ok tree → tree.Omits "x" := by
    intro tree read
    rw [read] at shape
    exact Node.omits_of_declaresNil (Option.some.inj shape)
  refine ⟨machine, _, omits, apart, ?_, unmentioned,
    Machine.omitted_name_does_not_matter omits apart 9 unmentioned⟩
  cases read : readProgram "let y = nil;".toList with
  | ok tree => exact ⟨tree, rfl⟩
  | error error =>
    rw [read] at shape
    cases shape

end Scriptlet
