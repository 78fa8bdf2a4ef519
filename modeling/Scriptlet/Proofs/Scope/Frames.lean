import Scriptlet.Scope.Store

/-! The frames of a store after each change, and the names they bind. -/

set_option autoImplicit false

namespace Scriptlet

namespace Bindings

theorem find?_put (name bound : String) (value : Value) (bindings : Bindings) :
    find? bound (put name value bindings) =
      if bound = name then some value else find? bound bindings := by
  induction bindings with
  | nil => simp [put, find?, eq_comm]
  | cons entry rest ih =>
    obtain ⟨first, old⟩ := entry
    by_cases same : first = name
    · subst same
      by_cases asked : bound = first <;> simp [put, find?, asked, eq_comm]
    · by_cases asked : first = bound
      · subst asked
        simp [put, find?, same]
      · simp [put, find?, same, asked, ih]

theorem binds_put (name bound : String) (value : Value) (bindings : Bindings) :
    binds bound (put name value bindings) = (decide (bound = name) || binds bound bindings) := by
  by_cases same : bound = name <;> simp [binds, find?_put, same]

end Bindings

namespace Store

variable (store : Store) (scope other : ScopeId)

abbrev size : Nat := store.frames.size

@[simp] theorem size_modify (change : Bindings → Bindings) :
    (store.modify scope change).size = store.size := by
  simp [modify, size]

@[simp] theorem size_define (name : String) (value : Value) :
    (store.define scope name value).size = store.size :=
  store.size_modify scope _

@[simp] theorem size_addFrame (outer : Option ScopeId) :
    (store.addFrame outer).2.size = store.size + 1 := by
  simp [addFrame, size]

theorem frames_modify (change : Bindings → Bindings) :
    (store.modify scope change).frames[other]? =
      if scope = other then
        store.frames[other]?.map fun frame => { frame with bindings := change frame.bindings }
      else store.frames[other]? := by
  simp [modify, Array.getElem?_modify]

theorem frames_addFrame (outer : Option ScopeId) :
    (store.addFrame outer).2.frames[other]? =
      if other = store.size then some ⟨outer, []⟩ else store.frames[other]? := by
  simp [addFrame, Array.getElem?_push]

theorem bindingsAt_eq :
    store.bindingsAt scope = ((store.frames[scope]?).map Frame.bindings).getD [] := by
  unfold bindingsAt
  cases store.frames[scope]? <;> rfl

theorem bindingsAt_modify (change : Bindings → Bindings) :
    (store.modify scope change).bindingsAt other =
      if scope = other ∧ scope < store.size then change (store.bindingsAt other)
      else store.bindingsAt other := by
  simp only [bindingsAt_eq, frames_modify]
  by_cases same : scope = other
  · subst same
    by_cases inside : scope < store.size <;> simp [inside]
  · simp [same]

@[simp] theorem bindingsAt_addFrame (outer : Option ScopeId) :
    (store.addFrame outer).2.bindingsAt other = store.bindingsAt other := by
  simp only [bindingsAt_eq, frames_addFrame]
  by_cases same : other = store.size <;> simp [same]

/-- Defining a name binds it in the frame of that scope, and changes no other binding. -/
theorem bindsLocally_define (name bound : String) (value : Value) :
    (store.define scope name value).bindsLocally other bound =
      (store.bindsLocally other bound ||
        decide (other = scope ∧ scope < store.size ∧ bound = name)) := by
  rw [bindsLocally, define, bindingsAt_modify]
  by_cases same : scope = other
  · subst same
    by_cases inside : scope < store.size <;>
      simp [inside, Bindings.binds_put, bindsLocally, Bool.or_comm]
  · simp [same, bindsLocally, eq_comm]

theorem bindsLocally_addFrame (outer : Option ScopeId) (bound : String) :
    (store.addFrame outer).2.bindsLocally other bound = store.bindsLocally other bound := by
  simp [bindsLocally]

theorem bindsLocally_of_owner? {store : Store} {scope owner : ScopeId} {name : String}
    (found : store.owner? scope name = some owner) : store.bindsLocally owner name = true := by
  fun_induction Store.owner? store scope name with
  | case1 => cases found
  | case2 scope frame known binds =>
    cases found
    simpa [bindsLocally, bindingsAt, known] using binds
  | case3 => cases found
  | case4 _ _ _ _ _ _ _ ih => exact ih found
  | case5 => cases found

end Store

end Scriptlet
