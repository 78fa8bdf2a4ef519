import Mathlib.Data.Nat.Basic
import Scriptlet.Proofs.Machine.Making
import Scriptlet.Proofs.Machine.Simulation
import Scriptlet.Proofs.Scope.Reach

/-! What can be reached from where an evaluation begins is all that it works with. -/

set_option autoImplicit false

namespace Scriptlet

/-! Two stores that differ in scopes of other kinds only -/

/-- Two stores that have come from a `first` and a `second` one. Scopes of one kind are the same in
both, lead to no others, and new ones will be of that kind; all others are as they have been. -/
structure Store.Beside (kind : ScopeId → Prop) (first second store other : Store) : Prop where
  size : other.size = store.size
  later : ∀ scope, store.size ≤ scope → kind scope
  closed : store.IsClosed fun scope => kind scope ∧ scope < store.size
  agrees : store.AgreesOn kind other
  kept : ∀ scope, ¬kind scope → store.frames[scope]? = first.frames[scope]?
  otherKept : ∀ scope, ¬kind scope → other.frames[scope]? = second.frames[scope]?

namespace Store.Beside

variable {kind : ScopeId → Prop} {first second store other : Store}

theorem get_eq (beside : Beside kind first second store other) {scope : ScopeId}
    (inside : kind scope ∧ scope < store.size) (name : String) (span : Span) :
    store.get scope name span = other.get scope name span :=
  AgreesOn.get_eq (fun scope inside => beside.agrees scope inside.1) beside.closed inside span

theorem owner?_eq (beside : Beside kind first second store other) {scope : ScopeId}
    (inside : kind scope ∧ scope < store.size) (name : String) :
    store.owner? scope name = other.owner? scope name :=
  AgreesOn.owner?_eq (fun scope inside => beside.agrees scope inside.1) beside.closed inside

theorem define (beside : Beside kind first second store other) {scope : ScopeId}
    (inside : kind scope) (name : String) {value : Value}
    (leads : value.LeadsInto fun scope => kind scope ∧ scope < store.size) :
    Beside kind first second (store.define scope name value) (other.define scope name value) where
  size := by simpa using beside.size
  later := by simpa using beside.later
  closed := by simpa using beside.closed.define scope name leads
  agrees := beside.agrees.modify scope _
  kept place outside := by
    have elsewhere : scope ≠ place := fun same => outside (same ▸ inside)
    rw [Store.define, frames_modify, if_neg elsewhere]
    exact beside.kept place outside
  otherKept place outside := by
    have elsewhere : scope ≠ place := fun same => outside (same ▸ inside)
    rw [Store.define, frames_modify, if_neg elsewhere]
    exact beside.otherKept place outside

theorem addFrame (beside : Beside kind first second store other) {outer : ScopeId}
    (inside : kind outer ∧ outer < store.size) :
    Beside kind first second (store.addFrame (some outer)).2 (other.addFrame (some outer)).2 where
  size := by simpa using beside.size
  later scope large := beside.later scope (by rw [size_addFrame] at large; omega)
  closed := by
    apply beside.closed.addFrame inside
    intro scope
    have new (same : scope = store.size) : kind scope := beside.later scope (Nat.le_of_eq same.symm)
    rw [size_addFrame, Nat.lt_succ_iff_lt_or_eq, and_or_left, and_iff_right_of_imp new]
  agrees scope inside := by
    rw [frames_addFrame, frames_addFrame, beside.size, beside.agrees scope inside]
  kept place outside := by
    have old : place ≠ store.size := fun same =>
      outside (beside.later place (Nat.le_of_eq same.symm))
    rw [frames_addFrame, if_neg old]
    exact beside.kept place outside
  otherKept place outside := by
    have old : place ≠ store.size := fun same =>
      outside (beside.later place (Nat.le_of_eq same.symm))
    rw [frames_addFrame, beside.size, if_neg old]
    exact beside.otherKept place outside

end Store.Beside

/-! Two machines that differ in such stores -/

def Domain.among (kind : ScopeId → Prop) : Domain where
  World := Nat
  order := inferInstance
  scopes size scope := kind scope ∧ scope < size
  closures size closure := kind closure.scope ∧ closure.scope < size
  scopes_mono before := And.imp_right fun inside => Nat.lt_of_lt_of_le inside before
  closures_mono before := And.imp_right fun inside => Nat.lt_of_lt_of_le inside before
  captured inside := inside

section

variable {kind : ScopeId → Prop}

theorem Domain.values_among_iff {size : Nat} {value : Value} :
    (among kind).Values size value ↔
      value.LeadsInto fun scope => kind scope ∧ scope < size := by
  cases value with
  | closure made => simp [Domain.Values, among, Value.LeadsInto, Value.scope?]
  | _ => simp [Domain.Values, Value.LeadsInto, Value.scope?]

def besideSimulation (kind : ScopeId → Prop) (first second : Store) :
    Simulation (Domain.among kind).likeness where
  machines size a b := a.store.size = size ∧
    (∀ behaviour ∈ a.behaviours, Behaviour.IsConfined [] behaviour) ∧
    ∃ other, b = { a with store := other } ∧ Store.Beside kind first second a.store other
  lost _ := False

theorem besideSimulation_sound {first second : Store} :
    (besideSimulation kind first second).Sound where
  enter role together := by
    obtain ⟨size, confined, other, rfl, beside⟩ := together
    cases role <;> exact ⟨size, confined, other, rfl, beside⟩
  leave role together := by
    obtain ⟨size, confined, other, rfl, beside⟩ := together
    cases role <;> exact ⟨size, confined, other, rfl, beside⟩
  lookUp := by
    rintro _ a _ s _ name span ⟨rfl, confined, other, rfl, beside⟩ ⟨rfl, inside⟩
    unfold Simulation.DoAlike Effect.run Evaluation.lookUp
    dsimp only
    rw [← beside.get_eq inside name span]
    cases found : a.store.get s name span with
    | ok value =>
      have leads := beside.closed.of_get inside found
      have alike := Domain.values_iff.mpr ⟨rfl, Domain.values_among_iff.mpr leads⟩
      exact Simulation.pairs_done le_rfl alike ⟨rfl, confined, other, rfl, beside⟩
    | error error => exact Simulation.pairs_failed _ ⟨rfl, confined, other, rfl, beside⟩
  assign := by
    rintro _ a _ s _ x y name span ⟨rfl, confined, other, rfl, beside⟩ ⟨rfl, inside⟩ values
    obtain ⟨rfl, known⟩ := Domain.values_iff.mp values
    have leads := Domain.values_among_iff.mp known
    unfold Simulation.DoAlike Effect.run Evaluation.assign
    dsimp only
    rw [← beside.owner?_eq inside name]
    cases found : a.store.owner? s name with
    | some owner =>
      have owned := beside.closed.of_owner? inside found
      have defined := beside.define owned.1 name leads
      exact Simulation.pairs_done le_rfl trivial ⟨by simp, confined, _, rfl, defined⟩
    | none => exact Simulation.pairs_failed _ ⟨rfl, confined, other, rfl, beside⟩
  define := by
    rintro _ a _ s _ x y name ⟨rfl, confined, other, rfl, beside⟩ ⟨rfl, inside⟩ values
    obtain ⟨rfl, known⟩ := Domain.values_iff.mp values
    have leads := Domain.values_among_iff.mp known
    have defined := beside.define inside.1 name leads
    exact Simulation.pairs_done le_rfl trivial ⟨by simp, confined, _, rfl, defined⟩
  -- a new scope is of the kind, since all later ones are
  openScope := by
    rintro _ a _ s _ ⟨rfl, confined, other, rfl, beside⟩ ⟨rfl, inside⟩
    have opened := beside.addFrame inside
    have isNew : kind a.store.size ∧ a.store.size < a.store.size + 1 :=
      ⟨beside.later _ (Nat.le_refl _), Nat.lt_succ_self _⟩
    exact Simulation.pairs_done (Nat.le_succ _) ⟨beside.size.symm, isNew⟩
      ⟨Store.size_addFrame _ _, confined, _, rfl, opened⟩
  makeClosure := by
    rintro _ a _ s _ name parameters body ⟨rfl, confined, other, rfl, beside⟩ ⟨rfl, inside⟩
    exact Simulation.pairs_done le_rfl ⟨rfl, inside⟩ ⟨rfl, confined, other, rfl, beside⟩
  checkDepth := by
    rintro _ a _ span ⟨rfl, confined, other, rfl, beside⟩
    unfold Simulation.DoAlike Effect.run Evaluation.checkDepth
    dsimp only
    split
    · exact Simulation.pairs_failed _ ⟨rfl, confined, other, rfl, beside⟩
    · exact Simulation.pairs_done le_rfl trivial ⟨rfl, confined, other, rfl, beside⟩
  callNative := by
    rintro _ a _ xs ys native span ⟨rfl, confined, other, rfl, beside⟩ values
    obtain ⟨rfl, given⟩ := Domain.valueLists_iff.mp values
    unfold Simulation.DoAlike Effect.run Evaluation.callNative
    dsimp only
    cases known : a.behaviours[native.identity]? with
    | none => exact Simulation.pairs_failed _ ⟨rfl, confined, other, rfl, beside⟩
    | some behaviour =>
      have gives := confined behaviour (Array.mem_of_getElem? known) xs span a.host
      dsimp only
      cases outcome : behaviour xs span a.host with
      | done value host =>
        rw [outcome] at gives
        -- what is given back is plain or one of the arguments, which lead nowhere else
        have inside : (Domain.among kind).Values a.store.size value := by
          rcases gives with isPlain | isArgument
          · cases value with
            | closure made => cases isPlain
            | _ => trivial
          · exact given value isArgument
        exact Simulation.pairs_done le_rfl (Domain.values_iff.mpr ⟨rfl, inside⟩)
          ⟨rfl, confined, other, rfl, beside⟩
      | failed error host => exact Simulation.pairs_failed _ ⟨rfl, confined, other, rfl, beside⟩
      | cutOff => rfl

end

/-! Evaluations stay in reach of where they begin -/

/-- Scopes that can be reached from some scopes, and those that are made later. -/
def Store.InReach (store : Store) (roots : ScopeId → Prop) (scope : ScopeId) : Prop :=
  store.Reachable roots scope ∨ store.size ≤ scope

def Store.LeavesAlone (roots : ScopeId → Prop) (before after : Store) : Prop :=
  ∀ scope < before.size, ¬before.Reachable roots scope →
    after.frames[scope]? = before.frames[scope]?

/-- Two machines that are the same but for scopes of other kinds: those of the other machine are what
they are in a third store. -/
def Machine.SameOn (kind : ScopeId → Prop) (replaced : Store) (machine other : Machine) : Prop :=
  ∃ store, other = { machine with store := store } ∧ store.size = machine.store.size ∧
    machine.store.AgreesOn kind store ∧ store.AgreesOn (fun scope => ¬kind scope) replaced

/-- However it ends, an action has left alone what was out of reach, and its value leads to nothing
but what was in reach or has been made since. What is out of reach does not matter, either: if it is
replaced, the action comes to the same, and leaves the machine the same, but for what was replaced,
which it leaves alone, too. -/
structure Evaluation.StaysInReach {α : Type} (action : Evaluation α) (machine : Machine)
    (roots : ScopeId → Prop) (refers : α → ScopeId → Prop) : Prop where
  leaves : (action machine).Meets (fun _ after => machine.store.LeavesAlone roots after.store)
    fun _ after => machine.store.LeavesAlone roots after.store
  leads : (action machine).Meets
    (fun value after => ∀ scope, after.store.Reachable (refers value) scope →
      machine.store.InReach roots scope ∧ scope < after.store.size) fun _ _ => True
  apart : ∀ store, store.size = machine.store.size →
    machine.store.AgreesOn (machine.store.Reachable roots) store →
      Outcome.Pairs
        (fun value other a b => value = other ∧ a.SameOn (machine.store.InReach roots) store b)
        (fun a b => a.SameOn (machine.store.InReach roots) store b) (fun _ => False)
        (action machine) (action { machine with store := store })

section

variable {machine : Machine} {roots : ScopeId → Prop} {task : Task}

theorem Store.IsWhole.beside {store other : Store} (whole : store.IsWhole)
    (size : other.size = store.size) (agrees : store.AgreesOn (store.Reachable roots) other) :
    Store.Beside (store.InReach roots) store other store other where
  size := size
  later _ large := .inr large
  closed := by
    apply IsClosed.of_links
    rintro scope next ⟨reachable | large, inside⟩ link
    · obtain ⟨root, isRoot, path⟩ := reachable
      exact ⟨.inl ⟨root, isRoot, path.tail link⟩, whole scope next inside link⟩
    · exact absurd inside (Nat.not_lt_of_le large)
  agrees := by
    rintro scope (reachable | large)
    · exact agrees scope reachable
    · have largeOther : other.size ≤ scope := size ▸ large
      rw [Array.getElem?_eq_none large, Array.getElem?_eq_none largeOther]
  kept _ _ := rfl
  otherKept _ _ := rfl

theorem Task.pairs_run (whole : machine.store.IsWhole)
    (confined : ∀ behaviour ∈ machine.behaviours, Behaviour.IsConfined [] behaviour)
    (fits : (Domain.among (machine.store.InReach roots)).Tasks machine.store.size task)
    (fuel : Nat) {other : Store} (size : other.size = machine.store.size)
    (agrees : machine.store.AgreesOn (machine.store.Reachable roots) other) :
    (besideSimulation (machine.store.InReach roots) machine.store other).Pairs machine.store.size
      (fun size result other => result = other ∧
        (Domain.among (machine.store.InReach roots)).Results size task result)
      (task.run fuel machine) (task.run fuel { machine with store := other }) := by
  have together := besideSimulation_sound.run fuel (Domain.tasks_alike fits)
    ⟨rfl, confined, other, rfl, whole.beside size agrees⟩
  apply Outcome.Pairs.mono together
  · rintro x y a b ⟨later, before, results, machines⟩
    exact ⟨later, before, Domain.results_of_alike results, machines⟩
  · exact fun _ _ machines => machines

theorem Task.staysInReach (task : Task) (whole : machine.store.IsWhole)
    (confined : ∀ behaviour ∈ machine.behaviours, Behaviour.IsConfined [] behaviour)
    (fits : (Domain.among (machine.store.InReach roots)).Tasks machine.store.size task)
    {refers : task.Result → ScopeId → Prop}
    (results : ∀ (size : Nat) (result : task.Result),
      (Domain.among (machine.store.InReach roots)).Results size task result →
        ∀ scope, refers result scope → machine.store.InReach roots scope ∧ scope < size)
    (fuel : Nat) : (task.run fuel : Evaluation task.Result).StaysInReach machine roots refers where
  leaves := by
    have leaves {after other : Store}
        (beside : Store.Beside (machine.store.InReach roots) machine.store machine.store after
          other) : machine.store.LeavesAlone roots after := by
      intro scope inside unreachable
      apply beside.kept
      rintro (reachable | large)
      · exact unreachable reachable
      · exact Nat.not_lt_of_le large inside
    -- to see what is left alone, the machine is compared with itself
    apply (Task.pairs_run whole confined fits fuel rfl fun _ _ => rfl).meets.mono
    · rintro value after ⟨_, _, _, _, _, _, _, other, _, beside⟩
      exact leaves beside
    · rintro error after (lost | ⟨_, _, _, _, _, other, _, beside⟩)
      · exact lost.elim
      · exact leaves beside
  leads := by
    apply (Task.pairs_run whole confined fits fuel rfl fun _ _ => rfl).meets.mono
    · rintro value after ⟨_, _, _, _, ⟨_, known⟩, rfl, _, other, _, beside⟩ scope reachable
      exact beside.closed.of_reachable (results _ value known) reachable
    · exact fun _ _ _ => trivial
  apart store size agrees := by
    have pairs := Task.pairs_run whole confined fits fuel size agrees
    apply Outcome.Pairs.mono pairs
    · rintro x y a b ⟨_, _, ⟨rfl, _⟩, _, _, other, rfl, beside⟩
      exact ⟨rfl, other, rfl, beside.size, beside.agrees, beside.otherKept⟩
    · rintro a b ⟨_, _, _, _, other, rfl, beside⟩
      exact ⟨other, rfl, beside.size, beside.agrees, beside.otherKept⟩

end

/-! Functions and blocks keep their scopes to themselves -/

def Completion.Refers (completion : Completion) (scope : ScopeId) : Prop :=
  scope ∈ completion.value.scope? ∨
    ∃ value, completion.signal = .returned value ∧ scope ∈ value.scope?

def Value.Brings (callee : Value) (arguments : List Value) (scope : ScopeId) : Prop :=
  scope ∈ callee.scope? ∨ ∃ argument ∈ arguments, scope ∈ argument.scope?

/-- In the machines that hosts come to, links lead to scopes that are there. -/
theorem Machine.IsOrderly.isWhole {made : List Closure} {machine : Machine}
    (orderly : machine.IsOrderly made) : machine.store.IsWhole := by
  intro scope other inside link
  cases link with
  | outer known => exact Nat.lt_trans (orderly.linked.outer_lt inside known) inside
  | @bound entry _ member leads =>
    have known := orderly.bound.of_mem_bindingsAt member
    obtain ⟨name, value⟩ := entry
    cases value with
    | closure closure =>
      cases leads
      exact orderly.captured closure known
    | _ => cases leads

/-- State that functions have captured is private to them. Where all links lead to scopes that are
there, and functions of the host give back no functions but their arguments: an evaluation in a scope
leaves alone whatever cannot be reached from that scope, comes to the same whatever that is, and has
a value that leads to nothing else; and so does a call, with the scopes that the function and its
arguments have been made in. -/
theorem Evaluation.captured_state_is_private {machine : Machine} (whole : machine.store.IsWhole)
    (confined : ∀ behaviour ∈ machine.behaviours, Behaviour.IsConfined [] behaviour)
    (fuel : Nat) :
    (∀ tree scope, scope < machine.store.size →
      (evaluate fuel tree scope).StaysInReach machine (fun root => root = scope)
        Completion.Refers) ∧
    ∀ callee arguments span,
      (∀ scope, callee.Brings arguments scope → scope < machine.store.size) →
        (call fuel callee arguments span).StaysInReach machine (callee.Brings arguments)
          fun value scope => scope ∈ value.scope? := by
  constructor
  · intro tree scope inside
    have root : machine.store.Reachable (fun root => root = scope) scope := ⟨scope, rfl, .refl⟩
    refine Task.staysInReach (.node tree scope) whole confined ⟨.inl root, inside⟩ ?_ fuel
    rintro size completion ⟨value, signal⟩ other (refers | ⟨returned, same, refers⟩)
    · exact Domain.values_among_iff.mp value other refers
    · rw [same] at signal
      exact Domain.values_among_iff.mp signal other refers
  · intro callee arguments span inside
    have brought {value : Value} (brings : ∀ scope ∈ value.scope?, callee.Brings arguments scope) :
        (Domain.among (machine.store.InReach (callee.Brings arguments))).Values
          machine.store.size value := by
      apply Domain.values_among_iff.mpr
      intro scope leads
      have root := brings scope leads
      exact ⟨.inl ⟨scope, root, .refl⟩, inside scope root⟩
    refine Task.staysInReach (.call callee arguments span) whole confined ⟨?_, ?_⟩ ?_ fuel
    · exact brought fun scope leads => .inl leads
    · exact fun argument member => brought fun scope leads => .inr ⟨argument, member, leads⟩
    · exact fun size value known => Domain.values_among_iff.mp known

/-- A machine with two scopes within the root, one made after the other. -/
def Machine.withTwins : Machine :=
  let begin := start 1 .unlimited ⟨fun _ => some 0⟩
  { begin with
    store := ((begin.store.addFrame (some root)).2.addFrame (some root)).2 }

theorem Machine.withTwins_isOrderly : withTwins.IsOrderly [] := by
  have begun := start_isOrderly 1 .unlimited ⟨fun _ => some 0⟩
  have first := begun.addFrame begun.linked.rooted
  exact first.addFrame first.linked.rooted

theorem Machine.withTwins_unreachable :
    ¬withTwins.store.Reachable (fun root => root = 1) 2 := by
  have orderly := withTwins_isOrderly
  have closed : withTwins.store.IsClosed fun scope => scope < 2 := by
    apply Store.IsClosed.of_links
    rintro scope other inside link
    cases link with
    | outer known =>
      have there : scope < withTwins.store.size := Nat.lt_trans inside (by decide)
      exact Nat.lt_trans (orderly.linked.outer_lt there known) inside
    | @bound entry _ member leads =>
      obtain ⟨name, value⟩ := entry
      have known := orderly.bound.of_mem_bindingsAt member
      cases value with
      | closure closure => cases known
      | _ => cases leads
  intro reachable
  have inside : 2 < 2 := closed.of_reachable (by rintro _ rfl; decide) reachable
  exact absurd inside (Nat.lt_irrefl 2)

theorem Evaluation.evaluate_declare_nil (span : Span) (name : String) (scope : ScopeId)
    (machine : Machine) :
    evaluate 2 (.declare span name (.nil span)) scope machine =
      .done ⟨.nil, .normal⟩ { machine with store := machine.store.define scope name .nil } := by
  simp only [evaluate]
  rfl

theorem declaration_leaves_twin_alone :
    ∃ after, Evaluation.evaluate 2 (.declare (Span.point 0) "x" (.nil (Span.point 0))) 1
        Machine.withTwins = .done ⟨.nil, .normal⟩ after ∧
      after.store.frames[2]? = Machine.withTwins.store.frames[2]? := by
  have orderly := Machine.withTwins_isOrderly
  have inside : 1 < Machine.withTwins.store.size := by decide
  have twin : 2 < Machine.withTwins.store.size := by decide
  have evaluates := Evaluation.evaluate_declare_nil (Span.point 0) "x" 1 Machine.withTwins
  have stays := (Evaluation.captured_state_is_private orderly.isWhole orderly.behaviours 2).1
    (.declare (Span.point 0) "x" (.nil (Span.point 0))) 1 inside
  have leaves := stays.leaves
  rw [evaluates] at leaves
  exact ⟨_, evaluates, leaves 2 twin Machine.withTwins_unreachable⟩

end Scriptlet
