import Scriptlet.Machine.Basic
import Scriptlet.Proofs.Scope.Apart

/-! Which scopes see a binding.

From each scope a name is looked for along the way outward. So a binding is seen from the scopes whose
way comes to it before any other binding of the name, and a change of it shows there and nowhere else.
-/

set_option autoImplicit false

namespace Scriptlet

theorem Bindings.mem_names_iff {name : String} {bindings : Bindings} :
    name ∈ bindings.names ↔ bindings.binds name = true := by
  induction bindings with
  | nil => simp [names, binds, find?]
  | cons entry rest ih =>
    obtain ⟨bound, value⟩ := entry
    by_cases same : bound = name
    · simp [names, binds, find?, same]
    · simpa [names, binds, find?, same, Ne.symm same] using ih

namespace Store

/-- The frames of a store stand in the order they were made: every scope is within none, or within an
earlier one. So no way outward comes back to where it was. -/
def IsAcyclic (store : Store) : Prop :=
  ∀ scope outer, store.outer? scope = some outer → outer < scope

namespace IsAcyclic

variable {store : Store}

theorem empty : Store.empty.IsAcyclic := by
  intro scope outer known
  cases known

theorem addFrame (acyclic : store.IsAcyclic) (outer : Option ScopeId)
    (inside : ∀ scope ∈ outer, scope < store.size) : (store.addFrame outer).2.IsAcyclic := by
  intro scope around known
  rw [outer?_addFrame] at known
  split at known
  · next isNew => exact isNew ▸ inside around known
  · exact acyclic scope around known

theorem modify (acyclic : store.IsAcyclic) (scope : ScopeId) (change : Bindings → Bindings) :
    (store.modify scope change).IsAcyclic := by
  intro other outer known
  rw [outer?_modify] at known
  exact acyclic other outer known

theorem define (acyclic : store.IsAcyclic) (scope : ScopeId) (name : String) (value : Value) :
    (store.define scope name value).IsAcyclic :=
  acyclic.modify scope _

theorem around?_eq (acyclic : store.IsAcyclic) (scope : ScopeId) :
    store.around? scope = store.outer? scope := by
  rw [around?]
  cases known : store.outer? scope with
  | none => rfl
  | some outer => simp [Option.filter, acyclic scope outer known]

end IsAcyclic

/-- On the way outward from a scope a place comes before any other scope that binds a name. -/
inductive ComesTo (store : Store) (name : String) : ScopeId → ScopeId → Prop where
  | here {scope : ScopeId} : ComesTo store name scope scope
  | outward {scope outer place : ScopeId} : store.bindsLocally scope name = false →
    store.outer? scope = some outer → ComesTo store name outer place →
      ComesTo store name scope place

/-- From a scope outward, `owner` is the first scope that binds a name. -/
def Resolves (store : Store) (name : String) (scope owner : ScopeId) : Prop :=
  store.ComesTo name scope owner ∧ store.bindsLocally owner name = true

section

variable {store : Store} {scope observer place owner : ScopeId} {name : String}

theorem lt_size_of_bindsLocally (binds : store.bindsLocally scope name = true) :
    scope < store.size := by
  by_contra outside
  rw [bindsLocally, bindingsAt, Array.getElem?_eq_none (Nat.le_of_not_lt outside)] at binds
  cases binds

theorem ComesTo.le (acyclic : store.IsAcyclic) (comes : store.ComesTo name scope place) :
    place ≤ scope := by
  induction comes with
  | here => exact Nat.le_refl _
  | outward _ known _ ih => exact Nat.le_trans ih (Nat.le_of_lt (acyclic _ _ known))

theorem ComesTo.owner?_eq (acyclic : store.IsAcyclic) (comes : store.ComesTo name scope place) :
    store.owner? scope name = store.owner? place name := by
  induction comes with
  | here => rfl
  | outward bare known _ ih =>
    rw [owner?_eq_around, bare, if_neg Bool.false_ne_true, acyclic.around?_eq, known]
    exact ih

theorem owner?_of_bindsLocally (binds : store.bindsLocally scope name = true) :
    store.owner? scope name = some scope := by
  rw [owner?_eq_around, if_pos binds]

theorem owner?_eq_some_iff (acyclic : store.IsAcyclic) :
    store.owner? scope name = some owner ↔ store.Resolves name scope owner := by
  constructor
  · intro found
    refine ⟨?_, bindsLocally_of_owner? found⟩
    induction scope using Nat.strongRecOn with
    | ind scope ih =>
      rw [owner?_eq_around] at found
      split at found
      · cases found
        exact .here
      · next bare =>
        obtain ⟨outer, isOuter, further⟩ := Option.bind_eq_some_iff.mp found
        have known := (acyclic.around?_eq scope).symm.trans isOuter
        exact .outward (Bool.eq_false_iff.mpr bare) known
          (ih outer (acyclic scope outer known) further)
  · intro resolves
    rw [resolves.1.owner?_eq acyclic, owner?_of_bindsLocally resolves.2]

theorem get_eq_ok_iff (acyclic : store.IsAcyclic) {span : Span} {value : Value} :
    store.get scope name span = .ok value ↔
      ∃ owner, store.Resolves name scope owner ∧ store.own? owner name = some value := by
  simp only [← owner?_eq_some_iff acyclic]
  rw [get_eq_owner]
  change _ ↔ ∃ owner, store.owner? scope name = some owner ∧
    (store.bindingsAt owner).find? name = some value
  rw [← Option.bind_eq_some_iff]
  split
  · next found => simp [found]
  · next none => simp [none]

theorem visibleNames_eq_around (store : Store) (scope : ScopeId) :
    store.visibleNames scope = Bindings.names (store.bindingsAt scope) ++
      ((store.around? scope).map store.visibleNames).getD [] := by
  rw [visibleNames, bindingsAt, around?, outer?]
  cases store.frames[scope]? with
  | none => rfl
  | some frame =>
    cases isOuter : frame.outer with
    | none => simp [isOuter]
    | some outer =>
      by_cases before : outer < scope <;> simp [isOuter, before, Option.filter]

/-- The names that are listed are those that are found. -/
theorem mem_visibleNames_iff :
    name ∈ store.visibleNames scope ↔ ∃ owner, store.owner? scope name = some owner := by
  induction scope using Nat.strongRecOn with
  | ind scope ih =>
    rw [visibleNames_eq_around, owner?_eq_around, List.mem_append, Bindings.mem_names_iff]
    by_cases binds : store.bindsLocally scope name = true
    · rw [if_pos binds]
      exact iff_of_true (.inl binds) ⟨scope, rfl⟩
    · rw [if_neg binds]
      cases isOuter : store.around? scope with
      | none => simpa [bindsLocally] using binds
      | some outer =>
        have further := ih outer (lt_of_around? isOuter)
        simp only [Option.map_some, Option.getD_some, Option.bind_some, further]
        exact or_iff_right binds

/-! Many bindings -/

structure Binding where
  scope : ScopeId
  name : String
  value : Value

def bindAll (store : Store) (bindings : List Binding) : Store :=
  bindings.foldl (fun store binding => store.define binding.scope binding.name binding.value) store

@[simp] theorem around?_bindAll (store : Store) (bindings : List Binding) (place : ScopeId) :
    (store.bindAll bindings).around? place = store.around? place := by
  induction bindings generalizing store with
  | nil => rfl
  | cons binding bindings ih =>
    exact (ih _).trans (around?_define store binding.scope place binding.name binding.value)

theorem bindsLocally_bindAll (store : Store) (bindings : List Binding) (place : ScopeId)
    (bound : String) :
    (store.bindAll bindings).bindsLocally place bound = true ↔
      store.bindsLocally place bound = true ∨
        place < store.size ∧ ∃ binding ∈ bindings, binding.scope = place ∧ binding.name = bound := by
  induction bindings generalizing store with
  | nil => simp [bindAll]
  | cons binding bindings ih =>
    rw [bindAll, List.foldl_cons]
    refine (ih _).trans ?_
    have made : (place = binding.scope ∧ binding.scope < store.size ∧ bound = binding.name) ↔
        place < store.size ∧ binding.scope = place ∧ binding.name = bound := by
      constructor
      · rintro ⟨rfl, inside, rfl⟩
        exact ⟨inside, rfl, rfl⟩
      · rintro ⟨inside, rfl, rfl⟩
        exact ⟨rfl, inside, rfl⟩
    simp only [bindsLocally_define, size_define, Bool.or_eq_true, decide_eq_true_eq, made,
      List.mem_cons, exists_eq_or_imp, and_or_left, or_assoc]

theorem owner?_congr {other : Store} (around : ∀ place, other.around? place = store.around? place)
    (binds : ∀ place, other.bindsLocally place name = store.bindsLocally place name)
    (scope : ScopeId) : other.owner? scope name = store.owner? scope name := by
  induction scope using Nat.strongRecOn with
  | ind scope ih =>
    rw [owner?_eq_around, owner?_eq_around store, binds, around]
    split
    · rfl
    · exact Option.bind_congr fun outer isOuter => ih outer (lt_of_around? isOuter)

/-- The order of bindings does not matter to which scope binds a name. -/
theorem owner?_bindAll_of_perm {first second : List Binding} (perm : first.Perm second)
    (scope : ScopeId) :
    (store.bindAll first).owner? scope name = (store.bindAll second).owner? scope name := by
  refine owner?_congr (fun place => by simp) (fun place => ?_) scope
  rw [Bool.eq_iff_iff, bindsLocally_bindAll, bindsLocally_bindAll]
  simp only [perm.mem_iff]

/-! What a binding changes -/

theorem ComesTo.define (acyclic : store.IsAcyclic) (comes : store.ComesTo name observer scope)
    (value : Value) : (store.define scope name value).ComesTo name observer scope := by
  induction comes with
  | here => exact .here
  | @outward inner outer scope bare known further ih =>
    refine .outward ?_ ((outer?_define store scope inner name value).trans known) ih
    -- an outer scope is another one
    have before : scope < inner :=
      Nat.lt_of_le_of_lt (further.le acyclic) (acyclic inner outer known)
    simp [bindsLocally_define, bare, Nat.ne_of_gt before]

theorem get_define_of_comesTo (acyclic : store.IsAcyclic) (inside : scope < store.size)
    (comes : store.ComesTo name observer scope) (value : Value) (span : Span) :
    (store.define scope name value).get observer name span = .ok value := by
  have own := own?_define store scope scope name name value
  rw [if_pos ⟨rfl, inside, rfl⟩] at own
  have binds : (store.define scope name value).bindsLocally scope name = true := by
    rw [bindsLocally_eq_own, own]
    rfl
  rw [get_eq_ok_iff (acyclic.define scope name value)]
  exact ⟨scope, ⟨comes.define acyclic value, binds⟩, own⟩

theorem owner?_define_of_not_comesTo (acyclic : store.IsAcyclic)
    (misses : ¬ store.ComesTo name observer scope) (value : Value) :
    (store.define scope name value).owner? observer name = store.owner? observer name := by
  induction observer using Nat.strongRecOn with
  | ind observer ih =>
    have other : observer ≠ scope := by
      rintro rfl
      exact misses .here
    have same : (store.define scope name value).bindsLocally observer name =
        store.bindsLocally observer name := by
      simp [bindsLocally_define, other]
    rw [owner?_eq_around, owner?_eq_around store, same, around?_define]
    by_cases binds : store.bindsLocally observer name = true
    · rw [if_pos binds, if_pos binds]
    · rw [if_neg binds, if_neg binds]
      cases isOuter : store.around? observer with
      | none => rfl
      | some outer =>
        have known := (acyclic.around?_eq observer).symm.trans isOuter
        exact ih outer (lt_of_around? isOuter) fun comes =>
          misses (.outward (Bool.eq_false_iff.mpr binds) known comes)

theorem get_define_of_not_comesTo (acyclic : store.IsAcyclic)
    (misses : ¬ store.ComesTo name observer scope) (value : Value) (span : Span) :
    (store.define scope name value).get observer name span = store.get observer name span := by
  rw [get_eq_owner, get_eq_owner store, owner?_define_of_not_comesTo acyclic misses]
  cases found : store.owner? observer name with
  | none => rfl
  | some owner =>
    have other : owner ≠ scope := by
      rintro rfl
      exact misses ((owner?_eq_some_iff acyclic).mp found).1
    have same := own?_define store scope owner name name value
    rw [if_neg fun whole => other whole.1.symm, own?, own?] at same
    rw [Option.bind_some, Option.bind_some, same]

theorem comesTo_iff_resolves (binds : store.bindsLocally owner name = true) :
    store.ComesTo name observer owner ↔ store.Resolves name observer owner :=
  (and_iff_left binds).symm

end

/-- A name is found to have a value from some scopes, and is found as before from the others. Other
names are found as before from everywhere. -/
structure SeenFrom (sees : ScopeId → Prop) (name : String) (value : Value) (before after : Store) :
    Prop where
  seen : ∀ observer span, sees observer → after.get observer name span = .ok value
  unseen : ∀ observer span, ¬ sees observer →
    after.get observer name span = before.get observer name span
  others : ∀ observer other span, other ≠ name →
    after.get observer other span = before.get observer other span

theorem seenFrom_define {store : Store} (acyclic : store.IsAcyclic) {scope : ScopeId}
    (inside : scope < store.size) (name : String) (value : Value) :
    SeenFrom (store.ComesTo name · scope) name value store (store.define scope name value) where
  seen _ span comes := get_define_of_comesTo acyclic inside comes value span
  unseen _ span misses := get_define_of_not_comesTo acyclic misses value span
  others observer _ span unlike := (Apart.of_define inside value).get_eq unlike observer span

theorem assign_eq_ok {store after : Store} {scope : ScopeId} {name : String} {value : Value}
    {span : Span} (assigned : store.assign scope name value span = .ok after) :
    ∃ owner, store.owner? scope name = some owner ∧ after = store.define owner name value := by
  unfold assign at assigned
  split at assigned
  · next owner found =>
    cases assigned
    exact ⟨owner, found, rfl⟩
  · cases assigned

theorem not_visible_iff {store : Store} {scope : ScopeId} {name : String} :
    name ∉ store.visibleNames scope ↔ store.owner? scope name = none := by
  rw [mem_visibleNames_iff, not_exists, Option.eq_none_iff_forall_not_mem]
  rfl

/-- A name can be assigned to where it is found, and it is found where it is listed. An assignment
changes the binding of the nearest scope that has one, which is seen from the scopes that find the name
there; a definition is seen from where the way outward comes to it first. Where a name is not listed,
neither finding it nor assigning to it does anything but fail, with the name and the place asked for. -/
theorem lookup_assignment_and_listing_agree {store : Store} (acyclic : store.IsAcyclic)
    (scope : ScopeId) (name : String) (value : Value) (span : Span) :
    ((∃ after, store.assign scope name value span = .ok after) ↔
      name ∈ store.visibleNames scope) ∧
    ((∃ found, store.get scope name span = .ok found) ↔ name ∈ store.visibleNames scope) ∧
    (∀ after, store.assign scope name value span = .ok after →
      ∃ owner old, store.Resolves name scope owner ∧
        Apart owner name (some old) (some value) store after ∧
        SeenFrom (store.Resolves name · owner) name value store after) ∧
    (scope < store.size →
      Apart scope name (store.own? scope name) (some value) store (store.define scope name value) ∧
      SeenFrom (store.ComesTo name · scope) name value store (store.define scope name value)) ∧
    (name ∉ store.visibleNames scope →
      store.assign scope name value span = .error (.undefinedTarget name span) ∧
      store.get scope name span = .error (.undefinedVariable name span) ∧
      ∀ machine : Machine, machine.store = store →
        Evaluation.assign scope name value span machine =
          .failed (.unbound (.undefinedTarget name span)) machine ∧
        Evaluation.lookUp scope name span machine =
          .failed (.unbound (.undefinedVariable name span)) machine) := by
  refine ⟨?_, ?_, ?_, ?_, ?_⟩
  · rw [mem_visibleNames_iff, assign]
    cases store.owner? scope name <;> simp
  · rw [mem_visibleNames_iff]
    simp only [get_eq_ok_iff acyclic, owner?_eq_some_iff acyclic]
    constructor
    · rintro ⟨_, owner, resolves, _⟩
      exact ⟨owner, resolves⟩
    · rintro ⟨owner, resolves⟩
      obtain ⟨found, own⟩ := Option.isSome_iff_exists.mp resolves.2
      exact ⟨found, owner, resolves, own⟩
  · intro after assigned
    obtain ⟨owner, found, rfl⟩ := assign_eq_ok assigned
    have resolves := (owner?_eq_some_iff acyclic).mp found
    obtain ⟨old, own⟩ := Option.isSome_iff_exists.mp resolves.2
    have inside := lt_size_of_bindsLocally resolves.2
    -- as the owner binds the name, coming to it first is finding the name there
    have sees : (store.ComesTo name · owner) = (store.Resolves name · owner) :=
      funext fun observer => propext (comesTo_iff_resolves resolves.2)
    refine ⟨owner, old, resolves, ?_, ?_⟩
    · exact (show store.own? owner name = some old from own) ▸ Apart.of_define inside value
    · exact sees ▸ seenFrom_define acyclic inside name value
  · exact fun inside => ⟨.of_define inside value, seenFrom_define acyclic inside name value⟩
  · intro absent
    rw [not_visible_iff] at absent
    have failing : store.get scope name span = .error (.undefinedVariable name span) := by
      rw [get_eq_owner, absent]
      rfl
    refine ⟨by rw [assign, absent], failing, ?_⟩
    rintro machine rfl
    exact ⟨by rw [Evaluation.assign, absent], by rw [Evaluation.lookUp, failing]⟩

/-- Assigned to or defined within a scope that shadows it, a name keeps its value outside of it. -/
theorem shadowed_name_keeps_value :
    let outside := ((Store.empty.addFrame none).2.define 0 "x" .nil).addFrame (some 0)
    let store := ((outside.2.define 1 "x" (.boolean false)).addFrame (some 1)).2
    let span : Span := ⟨0, 1⟩
    store.IsAcyclic ∧ ∃ after, store.assign 2 "x" (.boolean true) span = .ok after ∧
      after.get 1 "x" span = .ok (.boolean true) ∧ after.get 0 "x" span = .ok .nil ∧
      (store.define 1 "x" (.boolean true)).get 0 "x" span = .ok .nil ∧
      "y" ∉ store.visibleNames 2 ∧
      store.assign 2 "y" .nil span = .error (.undefinedTarget "y" span) := by
  intro outside store span
  have acyclic : store.IsAcyclic := by
    have first := (IsAcyclic.empty.addFrame none (by simp)).define 0 "x" .nil
    have second := (first.addFrame (some 0) (by decide)).define 1 "x" (.boolean false)
    exact second.addFrame (some 1) (by decide)
  have inner : store.Resolves "x" 1 1 := (owner?_eq_some_iff acyclic).mp (by decide +kernel)
  have outer : store.Resolves "x" 0 0 := (owner?_eq_some_iff acyclic).mp (by decide +kernel)
  have found : store.owner? 2 "x" = some 1 := by decide +kernel
  have absent : "y" ∉ store.visibleNames 2 := by decide +kernel
  obtain ⟨assigns, _, assigned, _⟩ :=
    lookup_assignment_and_listing_agree acyclic 2 "x" (.boolean true) span
  obtain ⟨_, _, _, defined, _⟩ :=
    lookup_assignment_and_listing_agree acyclic 1 "x" (.boolean true) span
  obtain ⟨_, _, _, _, fails⟩ := lookup_assignment_and_listing_agree acyclic 2 "y" .nil span
  obtain ⟨after, done⟩ := assigns.mpr (by decide +kernel)
  obtain ⟨owner, _, resolves, _, sees⟩ := assigned after done
  have isOne : owner = 1 :=
    Option.some.inj (((owner?_eq_some_iff acyclic).mpr resolves).symm.trans found)
  subst isOne
  have old : store.get 0 "x" span = .ok .nil := (get_eq_ok_iff acyclic).mpr ⟨0, outer, rfl⟩
  refine ⟨acyclic, after, done, sees.seen 1 span inner, ?_, ?_, absent, (fails absent).1⟩
  · have apart : ¬ store.Resolves "x" 0 1 := fun both => absurd (both.1.le acyclic) (by decide)
    rw [sees.unseen 0 span apart, old]
  · have apart : ¬ store.ComesTo "x" 0 1 := fun comes => absurd (comes.le acyclic) (by decide)
    rw [(defined (by decide)).2.unseen 0 span apart, old]

end Store

end Scriptlet
