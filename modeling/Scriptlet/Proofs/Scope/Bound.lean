import Scriptlet.Scope.Store

/-! What holds of every value that is bound in a store. -/

set_option autoImplicit false

namespace Scriptlet

variable {P : Value → Prop}

def Bindings.All (P : Value → Prop) (bindings : Bindings) : Prop := ∀ entry ∈ bindings, P entry.2

theorem Bindings.All.put {bindings : Bindings} (all : bindings.All P) (name : String)
    {value : Value} (holds : P value) : (bindings.put name value).All P := by
  induction bindings with
  | nil => exact List.forall_mem_singleton.mpr holds
  | cons entry rest ih =>
    obtain ⟨first, others⟩ := List.forall_mem_cons.mp all
    rw [Bindings.put]
    split
    · exact List.forall_mem_cons.mpr ⟨holds, others⟩
    · exact List.forall_mem_cons.mpr ⟨first, ih others⟩

theorem Bindings.All.of_find? {bindings : Bindings} (all : bindings.All P) {name : String}
    {value : Value} (found : bindings.find? name = some value) : P value := by
  induction bindings with
  | nil => cases found
  | cons entry rest ih =>
    obtain ⟨first, others⟩ := List.forall_mem_cons.mp all
    rw [Bindings.find?] at found
    split at found
    · cases found
      exact first
    · exact ih others found

def Store.All (P : Value → Prop) (store : Store) : Prop :=
  ∀ frame ∈ store.frames, frame.bindings.All P

namespace Store.All

variable {store : Store}

theorem empty : Store.empty.All P := by
  simp [Store.All, Store.empty]

theorem addFrame (all : store.All P) (outer : Option ScopeId) : (store.addFrame outer).2.All P := by
  intro frame member
  rcases Array.mem_push.mp member with old | rfl
  · exact all frame old
  · simp [Bindings.All]

theorem modify (all : store.All P) (scope : ScopeId) {change : Bindings → Bindings}
    (keeps : ∀ bindings : Bindings, bindings.All P → (change bindings).All P) :
    (store.modify scope change).All P := by
  intro frame member
  -- a frame of the new store is the one that was changed, or an old one
  obtain ⟨place, inside, same⟩ := Array.mem_iff_getElem.mp member
  have within : place < store.frames.size := by simpa [Store.modify] using inside
  have old := all store.frames[place] (Array.getElem_mem within)
  simp only [Store.modify, Array.getElem_modify] at same
  split at same
  · cases same
    exact keeps _ old
  · cases same
    exact old

theorem define (all : store.All P) (scope : ScopeId) (name : String) {value : Value}
    (holds : P value) : (store.define scope name value).All P :=
  all.modify scope fun _ old => old.put name holds

theorem of_mem_bindingsAt {scope : ScopeId} {entry : String × Value} (all : store.All P)
    (member : entry ∈ store.bindingsAt scope) : P entry.2 := by
  unfold Store.bindingsAt at member
  split at member
  · next frame known => exact all frame (Array.mem_of_getElem? known) entry member
  · cases member

theorem of_get {scope : ScopeId} {name : String} {span : Span} {value : Value}
    (all : store.All P) (found : store.get scope name span = .ok value) : P value := by
  fun_induction Store.get store scope name span with
  | case1 => cases found
  | case2 scope frame known value bound =>
    cases found
    exact (all frame (Array.mem_of_getElem? known)).of_find? bound
  | case3 => cases found
  | case4 _ _ _ _ _ _ _ ih => exact ih found
  | case5 => cases found

end Store.All

end Scriptlet
