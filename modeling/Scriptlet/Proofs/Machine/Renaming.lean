import Mathlib.Data.List.Infix
import Scriptlet.Proofs.Machine.Simulation
import Scriptlet.Proofs.Scope.Reach
import Scriptlet.Proofs.Scope.Renaming

/-! Two machines whose scopes have other places. Evaluation cannot tell them apart. -/

set_option autoImplicit false

namespace Scriptlet

/-! Functions of the host that cannot tell scopes apart -/

/-- A function of the host that comes to alike values from alike ones, and does the same to its own
part of the machine. -/
def Behaviour.IsBlind (behaviour : Behaviour) : Prop :=
  ∀ (L : Likeness) (world : L.World) (xs ys : List Value) (span : Span) (host : Host),
    L.ValueLists world xs ys →
      Outcome.Pairs (fun x y a b => L.Values world x y ∧ a = b) (fun a b => a = b) (fun _ => False)
        (behaviour xs span host) (behaviour ys span host)

theorem Behaviour.IsPlain.isBlind {behaviour : Behaviour} (plain : behaviour.IsPlain)
    (same : ∀ (L : Likeness) (world : L.World) (xs ys : List Value) (span : Span) (host : Host),
      L.ValueLists world xs ys → behaviour xs span host = behaviour ys span host) :
    behaviour.IsBlind := by
  intro L world xs ys span host alike
  have meets := plain ys span host
  rw [same L world xs ys span host alike]
  cases outcome : behaviour ys span host with
  | done value after =>
    rw [outcome] at meets
    exact ⟨value, after, rfl, .plain meets, rfl⟩
  | failed error after => exact .inr ⟨after, rfl, rfl⟩
  | cutOff => rfl

namespace Likeness

variable {L : Likeness} {world : L.World} {x y : Value} {xs ys : List Value}

theorem Values.display_eq (alike : L.Values world x y) : x.display = y.display := by
  cases alike with
  | plain => rfl
  | closure alike => rw [Value.display, Value.display, (L.code alike).1]

theorem ValueLists.map_display_eq (alike : L.ValueLists world xs ys) :
    xs.map Value.display = ys.map Value.display := by
  induction alike with
  | nil => rfl
  | cons first _ ih => rw [List.map_cons, List.map_cons, first.display_eq, ih]

theorem ValueLists.first (alike : L.ValueLists world xs ys) :
    L.Values world (Builtin.first xs) (Builtin.first ys) := by
  cases alike with
  | nil => exact .plain rfl
  | cons first => exact first

end Likeness

namespace Builtin

theorem isBlind_ofNumber {name : String} {apply : Float → Span → Action RuntimeError Host Value}
    (plain : Behaviour.IsPlain (ofNumber name apply)) :
    Behaviour.IsBlind (ofNumber name apply) := by
  refine plain.isBlind fun L world xs ys span host alike => ?_
  have firsts := Likeness.ValueLists.first alike
  unfold ofNumber
  generalize first xs = x at firsts ⊢
  generalize first ys = y at firsts ⊢
  cases firsts <;> rfl

theorem isBlind_all : ∀ entry ∈ all, Behaviour.IsBlind entry.2.2 := by
  have plain := isPlain_all
  simp only [all, List.forall_mem_cons] at plain ⊢
  obtain ⟨print, str, len, type, abs, floor, sqrt, clock, none⟩ := plain
  refine ⟨print.isBlind ?_, str.isBlind ?_, len.isBlind ?_, type.isBlind ?_, isBlind_ofNumber abs,
    isBlind_ofNumber floor, isBlind_ofNumber sqrt, clock.isBlind ?_, by simp⟩
  · intro L world xs ys span host alike
    rw [Builtin.print, Builtin.print, Likeness.ValueLists.map_display_eq alike]
  · intro L world xs ys span host alike
    rw [Builtin.str, Builtin.str, (Likeness.ValueLists.first alike).display_eq]
  · intro L world xs ys span host alike
    have firsts := Likeness.ValueLists.first alike
    unfold Builtin.len
    generalize first xs = x at firsts ⊢
    generalize first ys = y at firsts ⊢
    cases firsts <;> rfl
  · intro L world xs ys span host alike
    rw [Builtin.type, Builtin.type, (Likeness.ValueLists.first alike).type_eq]
  · exact fun _ _ _ _ _ _ _ => rfl

end Builtin

/-! Scopes at other places -/

/-- The places of the scopes of one machine in another one, in the order in which they were made. -/
structure Places where
  ofScopes : List ScopeId

instance : Preorder Places where
  le first second := first.ofScopes <+: second.ofScopes
  le_refl _ := List.prefix_rfl
  le_trans _ _ _ first second := first.trans second

structure Closure.Renamed (places : Places) (a b : Closure) : Prop where
  identity : a.identity = b.identity
  code : a.name = b.name ∧ a.parameters = b.parameters ∧ a.body = b.body
  scope : places.ofScopes[a.scope]? = some b.scope

def Likeness.renaming : Likeness where
  World := Places
  order := inferInstance
  scopes places scope place := places.ofScopes[scope]? = some place
  closures := Closure.Renamed
  scopes_mono before known := Store.getElem?_of_prefix before known
  closures_mono before alike :=
    ⟨alike.identity, alike.code, Store.getElem?_of_prefix before alike.scope⟩
  code := Closure.Renamed.code
  captured := Closure.Renamed.scope
  identity first second := by rw [first.identity, second.identity]

abbrev Store.Renamed (places : Places) : Store → Store → Prop :=
  Store.Renames (Likeness.renaming.Values places) places.ofScopes

/-- The same machine but for its store, which is the same but for places. -/
def Machine.Renamed (places : Places) (a b : Machine) : Prop :=
  ∃ other, b = { a with store := other } ∧ a.store.Renamed places other

/-- Machines that differ in the places of their scopes only, and in empty scopes. -/
def renamingSimulation : Simulation Likeness.renaming where
  machines places a b :=
    (∀ behaviour ∈ a.behaviours, Behaviour.IsBlind behaviour) ∧ a.Renamed places b
  lost _ := False

/-- Scopes that are opened on both sides, where one of them may have empty ones around it. -/
theorem renamingSimulation.openScopes {places : Places} {a : Machine} {other : Store}
    (blind : ∀ behaviour ∈ a.behaviours, Behaviour.IsBlind behaviour)
    (renames : a.store.Renamed places other) {scope place : ScopeId}
    (leads : Store.LeadsTo places.ofScopes other scope place) :
    renamingSimulation.DoAlike places (.openScope scope) (.openScope place) a
      { a with store := other } := by
  have before : places ≤ ⟨places.ofScopes ++ [other.size]⟩ := List.prefix_append _ _
  have opened := renames.addFrame leads fun _ _ alike => alike.mono before
  have known : (places.ofScopes ++ [other.size])[a.store.size]? = some other.size := by
    rw [← renames.size, List.getElem?_concat_length]
  exact Simulation.pairs_done before known ⟨blind, _, rfl, opened⟩

theorem renamingSimulation_sound : renamingSimulation.Sound where
  enter role together := by
    obtain ⟨blind, other, rfl, renames⟩ := together
    cases role <;> exact ⟨blind, other, rfl, renames⟩
  leave role together := by
    obtain ⟨blind, other, rfl, renames⟩ := together
    cases role <;> exact ⟨blind, other, rfl, renames⟩
  lookUp := by
    rintro places a _ scope place name span ⟨blind, other, rfl, renames⟩ known
    unfold Simulation.DoAlike Effect.run Evaluation.lookUp
    dsimp only
    rcases renames.get ⟨place, known, .refl⟩ name span with
      ⟨value, same, found, foundToo, alike⟩ | ⟨error, missing, missingToo⟩
    · rw [found, foundToo]
      exact Simulation.pairs_done le_rfl alike ⟨blind, other, rfl, renames⟩
    · rw [missing, missingToo]
      exact Simulation.pairs_failed _ ⟨blind, other, rfl, renames⟩
  assign := by
    rintro places a _ scope place x y name span ⟨blind, other, rfl, renames⟩ known values
    have owners := renames.owner? ⟨place, known, .refl⟩ name
    unfold Simulation.DoAlike Effect.run Evaluation.assign
    dsimp only
    generalize a.store.owner? scope name = owner at owners ⊢
    generalize other.owner? place name = own at owners ⊢
    cases owners with
    | none => exact Simulation.pairs_failed _ ⟨blind, other, rfl, renames⟩
    | some owned =>
      have defined := renames.define owned name values
      exact Simulation.pairs_done le_rfl trivial ⟨blind, _, rfl, defined⟩
  define := by
    rintro places a _ scope place x y name ⟨blind, other, rfl, renames⟩ known values
    have defined := renames.define known name values
    exact Simulation.pairs_done le_rfl trivial ⟨blind, _, rfl, defined⟩
  openScope := by
    rintro places a _ scope place ⟨blind, other, rfl, renames⟩ known
    exact renamingSimulation.openScopes blind renames ⟨place, known, .refl⟩
  makeClosure := by
    rintro places a _ scope place name parameters body ⟨blind, other, rfl, renames⟩ known
    exact Simulation.pairs_done le_rfl ⟨rfl, ⟨rfl, rfl, rfl⟩, known⟩ ⟨blind, other, rfl, renames⟩
  checkDepth := by
    rintro places a _ span ⟨blind, other, rfl, renames⟩
    unfold Simulation.DoAlike Effect.run Evaluation.checkDepth
    dsimp only
    split
    · exact Simulation.pairs_failed _ ⟨blind, other, rfl, renames⟩
    · exact Simulation.pairs_done le_rfl trivial ⟨blind, other, rfl, renames⟩
  callNative := by
    rintro places a _ xs ys native span ⟨blind, other, rfl, renames⟩ alike
    unfold Simulation.DoAlike Effect.run Evaluation.callNative
    dsimp only
    cases known : a.behaviours[native.identity]? with
    | none => exact Simulation.pairs_failed _ ⟨blind, other, rfl, renames⟩
    | some behaviour =>
      have pairs := blind behaviour (Array.mem_of_getElem? known) _ places xs ys span a.host alike
      dsimp only
      cases outcome : behaviour xs span a.host with
      | done value host =>
        rw [outcome] at pairs
        obtain ⟨same, _, outcomeToo, values, rfl⟩ := pairs
        rw [outcomeToo]
        exact Simulation.pairs_done le_rfl values ⟨blind, other, rfl, renames⟩
      | failed error host =>
        rw [outcome] at pairs
        obtain ⟨_, outcomeToo, rfl⟩ := pairs.resolve_left id
        rw [outcomeToo]
        exact Simulation.pairs_failed _ ⟨blind, other, rfl, renames⟩
      | cutOff =>
        rw [outcome] at pairs
        rw [show behaviour ys span a.host = .cutOff from pairs]
        rfl

def Store.places (store : Store) : Places := ⟨List.range store.size⟩

theorem Store.places_self {store : Store} {scope : ScopeId} (inside : scope < store.size) :
    store.places.ofScopes[scope]? = some scope := by
  rw [Store.places, List.getElem?_range inside]

theorem Store.IsWhole.renamed_self {machine : Machine} (whole : machine.store.IsWhole) :
    machine.Renamed machine.store.places machine := by
  refine ⟨machine.store, rfl, .refl ?_⟩
  rintro scope ⟨name, value⟩ member
  have inside : scope < machine.store.size := by
    by_cases inside : scope < machine.store.size
    · exact inside
    · rw [bindingsAt, Array.getElem?_eq_none (Nat.le_of_not_lt inside)] at member
      cases member
  cases value with
  | closure made =>
    have within := whole scope made.scope inside (.bound member rfl)
    exact .closure ⟨rfl, ⟨rfl, rfl, rfl⟩, Store.places_self within⟩
  | _ => exact .plain rfl

theorem Machine.start_isBlind (limit : Nat) (sink : Sink) (clock : Clock) :
    ∀ behaviour ∈ (start limit sink clock).behaviours, Behaviour.IsBlind behaviour := by
  refine start_induction_on
    (P := fun machine => ∀ behaviour ∈ machine.behaviours, Behaviour.IsBlind behaviour)
    Builtin.isBlind_all (by simp) ?_
  intro machine name arity behaviour blind own other member
  rcases Array.mem_push.mp member with old | rfl
  · exact blind other old
  · exact own

end Scriptlet
