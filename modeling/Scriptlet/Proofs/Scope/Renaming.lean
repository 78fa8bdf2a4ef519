import Mathlib.Data.List.Forall2
import Mathlib.Data.List.Nodup
import Mathlib.Logic.Relation
import Scriptlet.Proofs.Scope.Bound
import Scriptlet.Proofs.Scope.Lookup

/-! Stores that are the same but for the places of their scopes, and for empty scopes in between. -/

set_option autoImplicit false

namespace Scriptlet

namespace Bindings

abbrev Alike (alike : Value → Value → Prop) : Bindings → Bindings → Prop :=
  List.Forall₂ fun entry other => entry.1 = other.1 ∧ alike entry.2 other.2

variable {alike : Value → Value → Prop} {bindings others : Bindings}

theorem Alike.put (same : Alike alike bindings others) (name : String) {value other : Value}
    (values : alike value other) : Alike alike (bindings.put name value) (others.put name other) := by
  induction same with
  | nil => exact .cons ⟨rfl, values⟩ .nil
  | @cons entry entry' rest rest' heads tails ih =>
    obtain ⟨bound, old⟩ := entry
    obtain ⟨_, old'⟩ := entry'
    obtain ⟨rfl, olds⟩ := heads
    rw [Bindings.put, Bindings.put]
    split
    · exact .cons ⟨rfl, values⟩ tails
    · exact .cons ⟨rfl, olds⟩ ih

theorem Alike.find? (same : Alike alike bindings others) (name : String) :
    Option.Rel alike (bindings.find? name) (others.find? name) := by
  induction same with
  | nil => exact .none
  | @cons entry entry' rest rest' heads tails ih =>
    obtain ⟨bound, old⟩ := entry
    obtain ⟨_, old'⟩ := entry'
    obtain ⟨rfl, olds⟩ := heads
    rw [Bindings.find?, Bindings.find?]
    split
    · exact .some olds
    · exact ih

theorem Alike.binds (same : Alike alike bindings others) (name : String) :
    Bindings.binds name bindings = Bindings.binds name others := by
  have found := same.find? name
  rw [Bindings.binds, Bindings.binds]
  generalize bindings.find? name = value at found ⊢
  generalize others.find? name = other at found ⊢
  cases found <;> rfl

end Bindings

theorem rel_imp {α β : Type} {relation wider : α → β → Prop} {first : Option α} {second : Option β}
    (related : Option.Rel relation first second) (larger : ∀ a b, relation a b → wider a b) :
    Option.Rel wider first second := by
  cases related with
  | none => exact .none
  | some related => exact .some (larger _ _ related)

namespace Store

/-! Scopes and their places in another store -/

/-- The way from a place outward to another one, past places that stand for no scope. -/
def Through (places : List ScopeId) (store : Store) : ScopeId → ScopeId → Prop :=
  Relation.ReflTransGen fun inner outer => inner ∉ places ∧ store.around? inner = some outer

/-- A place from which, past places that stand for no scope, there comes that of a scope. -/
def LeadsTo (places : List ScopeId) (store : Store) (scope place : ScopeId) : Prop :=
  ∃ target, places[scope]? = some target ∧ Through places store place target

/-- Another store keeps the ways of a store if it leaves the scopes around others, and no place that
was there has come to stand for a scope. -/
theorem Through.grow {places later : List ScopeId} {store after : Store} {place target : ScopeId}
    (through : Through places store place target)
    (fresh : ∀ place ∈ later, place < store.size → place ∈ places)
    (around : ∀ inner < store.size, after.around? inner = store.around? inner) :
    Through later after place target := by
  refine Relation.ReflTransGen.mono ?_ _ _ through
  rintro inner outer ⟨noPlace, known⟩
  have inside := inside_of_around? known
  exact ⟨fun member => noPlace (fresh inner member inside), (around inner inside).trans known⟩

theorem getElem?_of_prefix {places later : List ScopeId} (longer : places <+: later)
    {scope place : ScopeId} (known : places[scope]? = some place) :
    later[scope]? = some place := by
  obtain ⟨rest, rfl⟩ := longer
  obtain ⟨inside, _⟩ := List.getElem?_eq_some_iff.mp known
  rwa [List.getElem?_append_left inside]

theorem getElem?_concat_cases {places : List ScopeId} {new scope place : ScopeId}
    (known : (places ++ [new])[scope]? = some place) :
    places[scope]? = some place ∨ scope = places.length ∧ place = new := by
  by_cases inside : scope < places.length
  · rw [List.getElem?_append_left inside] at known
    exact .inl known
  · rw [List.getElem?_append_right (Nat.le_of_not_lt inside), List.getElem?_singleton] at known
    split at known
    · next first =>
      cases known
      exact .inr ⟨Nat.le_antisymm (Nat.le_of_sub_eq_zero first) (Nat.le_of_not_lt inside), rfl⟩
    · cases known

theorem LeadsTo.grow {places later : List ScopeId} {store after : Store} {scope place : ScopeId}
    (leads : LeadsTo places store scope place) (longer : places <+: later)
    (fresh : ∀ place ∈ later, place < store.size → place ∈ places)
    (around : ∀ inner < store.size, after.around? inner = store.around? inner) :
    LeadsTo later after scope place := by
  obtain ⟨target, known, through⟩ := leads
  exact ⟨target, getElem?_of_prefix longer known, through.grow fresh around⟩

theorem LeadsTo.inside {places : List ScopeId} {store : Store} {scope place : ScopeId}
    (leads : LeadsTo places store scope place) (within : ∀ place ∈ places, place < store.size) :
    place < store.size := by
  obtain ⟨target, known, through⟩ := leads
  rcases through.cases_head with rfl | ⟨_, ⟨_, around⟩, _⟩
  · exact within _ (List.mem_of_getElem? known)
  · exact inside_of_around? around

/-- A store and another one with the same scopes at some places, and with nothing at all others. -/
structure Renames (alike : Value → Value → Prop) (places : List ScopeId) (store other : Store) :
    Prop where
  size : places.length = store.size
  inside : ∀ place ∈ places, place < other.size
  nodup : places.Nodup
  bindings : ∀ scope place, places[scope]? = some place →
    Bindings.Alike alike (store.bindingsAt scope) (other.bindingsAt place)
  outer : ∀ scope place, places[scope]? = some place →
    Option.Rel (LeadsTo places other) (store.around? scope) (other.around? place)
  blank : ∀ place, place ∉ places → other.bindingsAt place = []

namespace Renames

variable {alike : Value → Value → Prop} {places : List ScopeId} {store other : Store}
  {scope place : ScopeId}

theorem bindsLocally_eq_false (renames : Renames alike places store other)
    (noPlace : place ∉ places) (name : String) : other.bindsLocally place name = false := by
  rw [bindsLocally, renames.blank place noPlace]
  rfl

theorem owner?_through (renames : Renames alike places store other) {target : ScopeId}
    (through : Through places other place target) (name : String) :
    other.owner? place name = other.owner? target name := by
  induction through with
  | refl => rfl
  | @tail middle target _ step ih =>
    rw [ih, owner?_eq_around other middle, renames.bindsLocally_eq_false step.1, step.2]
    rfl

theorem owner? (renames : Renames alike places store other)
    (leads : LeadsTo places other scope place) (name : String) :
    Option.Rel (fun owner own => places[owner]? = some own) (store.owner? scope name)
      (other.owner? place name) := by
  -- on the scope, since the one around it was there before
  induction scope using Nat.strongRecOn generalizing place with
  | ind scope ih =>
    obtain ⟨target, known, through⟩ := leads
    have binds : store.bindsLocally scope name = other.bindsLocally target name :=
      (renames.bindings scope target known).binds name
    rw [renames.owner?_through through, owner?_eq_around, owner?_eq_around other, ← binds]
    split
    · exact .some known
    · have around := renames.outer scope target known
      generalize isOuter : store.around? scope = outer at around ⊢
      generalize other.around? target = beyond at around ⊢
      cases around with
      | none => exact .none
      | some leads => exact ih _ (lt_of_around? isOuter) leads

theorem get (renames : Renames alike places store other)
    (leads : LeadsTo places other scope place) (name : String) (span : Span) :
    (∃ value same, store.get scope name span = .ok value ∧ other.get place name span = .ok same ∧
      alike value same) ∨
    ∃ error, store.get scope name span = .error error ∧
      other.get place name span = .error error := by
  have owners := renames.owner? leads name
  rw [get_eq_owner, get_eq_owner other]
  generalize store.owner? scope name = owner at owners ⊢
  generalize other.owner? place name = own at owners ⊢
  cases owners with
  | none => exact .inr ⟨_, rfl, rfl⟩
  | @some owner own known =>
    have found := (renames.bindings owner own known).find? name
    dsimp only [Option.bind_some]
    generalize (store.bindingsAt owner).find? name = value at found ⊢
    generalize (other.bindingsAt own).find? name = same at found ⊢
    cases found with
    | none => exact .inr ⟨_, rfl, rfl⟩
    | some values => exact .inl ⟨_, _, rfl, rfl, values⟩

theorem injective (renames : Renames alike places store other) {scope' : ScopeId}
    (first : places[scope]? = some place) (second : places[scope']? = some place) :
    scope = scope' := by
  obtain ⟨inside, here⟩ := List.getElem?_eq_some_iff.mp first
  obtain ⟨inside', there⟩ := List.getElem?_eq_some_iff.mp second
  exact renames.nodup.getElem_inj_iff.mp (here.trans there.symm)

/-! The same change on both sides -/

theorem define (renames : Renames alike places store other) (known : places[scope]? = some place)
    (name : String) {value same : Value} (values : alike value same) :
    Renames alike places (store.define scope name value) (other.define place name same) where
  size := by simpa using renames.size
  inside := by simpa using renames.inside
  nodup := renames.nodup
  bindings scope' place' known' := by
    have old := renames.bindings scope' place' known'
    rw [Store.define, Store.define, bindingsAt_modify, bindingsAt_modify]
    by_cases here : scope = scope'
    · subst here
      obtain rfl : place = place' := Option.some.inj (known.symm.trans known')
      have inside : scope < store.size := renames.size ▸ (List.getElem?_eq_some_iff.mp known).1
      have insideToo := renames.inside place (List.mem_of_getElem? known)
      rw [if_pos ⟨rfl, inside⟩, if_pos ⟨rfl, insideToo⟩]
      exact old.put name values
    -- no two scopes stand at one place, so only the one place changes
    · have elsewhere : place ≠ place' := by
        rintro rfl
        exact here (renames.injective known known')
      rwa [if_neg (fun same => here same.1), if_neg (fun same => elsewhere same.1)]
  outer scope' place' known' := by
    simp only [around?_define]
    apply rel_imp (renames.outer scope' place' known')
    exact fun _ _ leads => leads.grow List.prefix_rfl (fun _ member _ => member) (by simp)
  blank place' noPlace := by
    have elsewhere : place ≠ place' := by
      rintro rfl
      exact noPlace (List.mem_of_getElem? known)
    rw [Store.define, bindingsAt_modify, if_neg (fun same => elsewhere same.1)]
    exact renames.blank place' noPlace

theorem addFrame (renames : Renames alike places store other)
    (leads : LeadsTo places other scope place) {later : Value → Value → Prop}
    (wider : ∀ value same, alike value same → later value same) :
    Renames later (places ++ [other.size]) (store.addFrame (some scope)).2
      (other.addFrame (some place)).2 := by
  have insideToo := leads.inside renames.inside
  have inside : scope < store.size := by
    obtain ⟨target, known, _⟩ := leads
    exact renames.size ▸ (List.getElem?_eq_some_iff.mp known).1
  have longer : places <+: places ++ [other.size] := List.prefix_append places _
  -- the new scope stands at a new place, so old ways do not lead past it
  have fresh : ∀ place ∈ places ++ [other.size], place < other.size → place ∈ places := by
    intro place member before
    rcases List.mem_append.mp member with old | isNew
    · exact old
    · exact absurd (List.mem_singleton.mp isNew) (Nat.ne_of_lt before)
  have around : ∀ inner < other.size,
      (other.addFrame (some place)).2.around? inner = other.around? inner :=
    fun inner before => around?_addFrame_of_lt insideToo before
  refine ⟨?_, ?_, ?_, ?_, ?_, ?_⟩
  · simp [renames.size]
  · intro target member
    rw [size_addFrame]
    rcases List.mem_append.mp member with old | isNew
    · exact Nat.lt_succ_of_lt (renames.inside target old)
    · rw [List.mem_singleton.mp isNew]
      exact Nat.lt_succ_self _
  · have apart : other.size ∉ places := fun member => Nat.lt_irrefl _ (renames.inside _ member)
    exact List.nodup_append_comm.mp (List.nodup_cons.mpr ⟨apart, renames.nodup⟩)
  · intro scope' place' known
    rw [bindingsAt_addFrame, bindingsAt_addFrame]
    rcases getElem?_concat_cases known with old | ⟨rfl, rfl⟩
    · exact (renames.bindings scope' place' old).imp fun _ _ => And.imp_right (wider _ _)
    · rw [renames.size]
      simp [bindingsAt]
  · intro scope' place' known
    rcases getElem?_concat_cases known with old | ⟨rfl, rfl⟩
    · have before : scope' < store.size := renames.size ▸ (List.getElem?_eq_some_iff.mp old).1
      have beforeToo := renames.inside place' (List.mem_of_getElem? old)
      rw [around?_addFrame_of_lt inside before, around place' beforeToo]
      exact rel_imp (renames.outer scope' place' old) fun _ _ leads =>
        leads.grow longer fresh around
    · rw [around?_addFrame store inside, around?_addFrame other insideToo, if_pos renames.size,
        if_pos rfl]
      exact .some (leads.grow longer fresh around)
  · intro place' noPlace
    rw [bindingsAt_addFrame]
    exact renames.blank place' fun old => noPlace (List.mem_append_left _ old)

theorem addBlank (renames : Renames alike places store other) (inside : place < other.size) :
    Renames alike places store (other.addFrame (some place)).2 where
  size := renames.size
  inside target member := by
    rw [size_addFrame]
    exact Nat.lt_succ_of_lt (renames.inside target member)
  nodup := renames.nodup
  bindings scope' place' known := by
    rw [bindingsAt_addFrame]
    exact renames.bindings scope' place' known
  outer scope' place' known := by
    rw [around?_addFrame_of_lt inside (renames.inside place' (List.mem_of_getElem? known))]
    exact rel_imp (renames.outer scope' place' known) fun _ _ leads =>
      leads.grow List.prefix_rfl (fun _ member _ => member) fun inner before =>
        around?_addFrame_of_lt inside before
  blank place' noPlace := by
    rw [bindingsAt_addFrame]
    exact renames.blank place' noPlace

theorem leadsTo_addBlank (renames : Renames alike places store other)
    (known : places[scope]? = some place) :
    LeadsTo places (other.addFrame (some place)).2 scope other.size := by
  have inside := renames.inside place (List.mem_of_getElem? known)
  refine ⟨place, known, .single ⟨fun member => Nat.lt_irrefl _ (renames.inside _ member), ?_⟩⟩
  rw [around?_addFrame other inside, if_pos rfl]

theorem refl (all : ∀ scope, (store.bindingsAt scope).All fun value => alike value value) :
    Renames alike (List.range store.size) store store where
  size := List.length_range
  inside place member := List.mem_range.mp member
  nodup := List.nodup_range
  bindings scope place known := by
    obtain ⟨_, rfl⟩ := List.getElem?_eq_some_iff.mp known
    rw [List.getElem_range]
    exact List.forall₂_same.mpr fun entry member => ⟨rfl, all scope entry member⟩
  outer scope place known := by
    obtain ⟨_, rfl⟩ := List.getElem?_eq_some_iff.mp known
    rw [List.getElem_range]
    cases isOuter : store.around? scope with
    | none => exact .none
    | some outer =>
      have before := Nat.lt_trans (lt_of_around? isOuter) (inside_of_around? isOuter)
      exact .some ⟨outer, by simp [before], .refl⟩
  blank place noPlace := by
    have outside : store.size ≤ place := by simpa using noPlace
    rw [bindingsAt, Array.getElem?_eq_none outside]

end Renames

end Store

end Scriptlet
