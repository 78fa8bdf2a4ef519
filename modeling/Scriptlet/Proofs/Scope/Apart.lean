import Scriptlet.Proofs.Scope.Lookup

/-! Two stores that differ in a single binding. -/

set_option autoImplicit false

namespace Scriptlet.Store

def own? (store : Store) (scope : ScopeId) (name : String) : Option Value :=
  (store.bindingsAt scope).find? name

section

variable (store : Store) (scope other : ScopeId) (name bound : String)

theorem bindsLocally_eq_own : store.bindsLocally scope name = (store.own? scope name).isSome := rfl

theorem own?_define (value : Value) :
    (store.define scope name value).own? other bound =
      if scope = other ∧ scope < store.size ∧ bound = name then some value
      else store.own? other bound := by
  rw [own?, define, bindingsAt_modify]
  by_cases here : scope = other ∧ scope < store.size
  · obtain ⟨rfl, inside⟩ := here
    simp only [inside, and_self, if_true, true_and, Bindings.find?_put]
    rfl
  · rw [if_neg here, if_neg fun whole => here ⟨whole.1, whole.2.1⟩]
    rfl

@[simp] theorem own?_addFrame (outer : Option ScopeId) :
    (store.addFrame outer).2.own? other bound = store.own? other bound := by
  rw [own?, bindingsAt_addFrame]
  rfl

end

/-- Two stores that differ at most in what a scope itself binds to a name: a `first` value or none in
the one, and a `second` in the other. -/
structure Apart (scope : ScopeId) (name : String) (first second : Option Value)
    (store other : Store) : Prop where
  size : other.size = store.size
  outer : ∀ place, other.outer? place = store.outer? place
  here : store.own? scope name = first
  there : other.own? scope name = second
  elsewhere : ∀ place bound, place ≠ scope ∨ bound ≠ name →
    other.own? place bound = store.own? place bound

namespace Apart

variable {scope : ScopeId} {name : String} {first second : Option Value} {store other : Store}

theorem around?_eq (apart : Apart scope name first second store other) (place : ScopeId) :
    other.around? place = store.around? place := by
  rw [around?, around?, apart.outer]

theorem of_define (inside : scope < store.size) (value : Value) :
    Apart scope name (store.own? scope name) (some value) store
      (store.define scope name value) where
  size := size_define store scope name value
  outer place := outer?_define store scope place name value
  here := rfl
  there := by rw [own?_define, if_pos ⟨rfl, inside, rfl⟩]
  elsewhere place bound unlike := by
    have apart : ¬(scope = place ∧ scope < store.size ∧ bound = name) :=
      fun same => unlike.elim (· same.1.symm) (· same.2.2)
    rw [own?_define, if_neg apart]

theorem owner?_eq (apart : Apart scope name first second store other) {bound : String}
    (unlike : bound ≠ name) (place : ScopeId) :
    other.owner? place bound = store.owner? place bound := by
  -- on the way outward, which is the same in both
  induction place using Nat.strongRecOn with
  | ind place ih =>
    rw [owner?_eq_around, owner?_eq_around store, bindsLocally_eq_own, bindsLocally_eq_own,
      apart.elsewhere place bound (.inr unlike), apart.around?_eq place]
    split
    · rfl
    · cases isOuter : store.around? place with
      | none => rfl
      | some outer => exact ih outer (lt_of_around? isOuter)

theorem get_eq (apart : Apart scope name first second store other) {bound : String}
    (unlike : bound ≠ name) (place : ScopeId) (span : Span) :
    other.get place bound span = store.get place bound span := by
  have same (owner : ScopeId) : (other.bindingsAt owner).find? bound =
      (store.bindingsAt owner).find? bound := apart.elsewhere owner bound (.inr unlike)
  rw [get_eq_owner, get_eq_owner, apart.owner?_eq unlike]
  simp only [same]

theorem define (apart : Apart scope name first second store other) {place : ScopeId}
    {bound : String} (unlike : place ≠ scope ∨ bound ≠ name) (value : Value) :
    Apart scope name first second (store.define place bound value)
      (other.define place bound value) where
  size := by simpa using apart.size
  outer := by simpa using apart.outer
  here := by
    have apartHere : ¬(place = scope ∧ place < store.size ∧ name = bound) :=
      fun same => unlike.elim (· same.1) (· same.2.2.symm)
    rw [own?_define, if_neg apartHere, apart.here]
  there := by
    have apartHere : ¬(place = scope ∧ place < other.size ∧ name = bound) :=
      fun same => unlike.elim (· same.1) (· same.2.2.symm)
    rw [own?_define, if_neg apartHere, apart.there]
  elsewhere inner asked unlike := by
    rw [own?_define, own?_define, apart.size, apart.elsewhere inner asked unlike]

theorem addFrame (apart : Apart scope name first second store other) (outer : Option ScopeId) :
    Apart scope name first second (store.addFrame outer).2 (other.addFrame outer).2 where
  size := by simpa using apart.size
  outer place := by rw [outer?_addFrame, outer?_addFrame, apart.size, apart.outer]
  here := by rw [own?_addFrame, apart.here]
  there := by rw [own?_addFrame, apart.there]
  elsewhere place bound unlike := by
    rw [own?_addFrame, own?_addFrame, apart.elsewhere place bound unlike]

end Apart

/-! What holds of all bindings but one -/

/-- Everything that is bound meets a condition, but for what a scope itself binds to a name. -/
def AllBut (P : Value → Prop) (scope : ScopeId) (name : String) (store : Store) : Prop :=
  ∀ place bound value, place ≠ scope ∨ bound ≠ name → store.own? place bound = some value → P value

namespace AllBut

variable {P : Value → Prop} {scope : ScopeId} {name : String} {store : Store}

theorem of_get (all : AllBut P scope name store) {place : ScopeId} {bound : String} {span : Span}
    (unlike : bound ≠ name) {value : Value} (found : store.get place bound span = .ok value) :
    P value := by
  rw [get_eq_owner] at found
  split at found
  · next value' known =>
    cases found
    obtain ⟨owner, _, own⟩ := Option.bind_eq_some_iff.mp known
    exact all owner bound value (.inr unlike) own
  · cases found

theorem define (all : AllBut P scope name store) (place : ScopeId) (bound : String) {value : Value}
    (holds : P value) : AllBut P scope name (store.define place bound value) := by
  intro other asked found unlike own
  rw [own?_define] at own
  split at own
  · cases own
    exact holds
  · exact all other asked found unlike own

theorem addFrame (all : AllBut P scope name store) (outer : Option ScopeId) :
    AllBut P scope name (store.addFrame outer).2 := by
  intro place bound value unlike own
  rw [own?_addFrame] at own
  exact all place bound value unlike own

end AllBut

end Scriptlet.Store
