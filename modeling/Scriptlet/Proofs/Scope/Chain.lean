import Mathlib.Data.List.Pairwise
import Scriptlet.Proofs.Scope.Frames

/-! The scopes around a scope.

Frames are within frames that were made before them, down to one that is within no other. So the way
outward from any scope comes to an end, and what is looked up is looked up along that way.
-/

set_option autoImplicit false

namespace Scriptlet

namespace Store

def outer? (store : Store) (scope : ScopeId) : Option ScopeId :=
  (store.frames[scope]?).bind Frame.outer

section

variable (store : Store) (scope other : ScopeId)

@[simp] theorem outer?_modify (change : Bindings → Bindings) :
    (store.modify scope change).outer? other = store.outer? other := by
  rw [outer?, frames_modify]
  split
  · unfold outer?
    cases store.frames[other]? <;> rfl
  · rfl

@[simp] theorem outer?_define (name : String) (value : Value) :
    (store.define scope name value).outer? other = store.outer? other :=
  store.outer?_modify scope other _

theorem outer?_addFrame (outer : Option ScopeId) :
    (store.addFrame outer).2.outer? other =
      if other = store.size then outer else store.outer? other := by
  rw [outer?, frames_addFrame]
  split <;> rfl

end

/-! Stores in which every scope but one is within an earlier one -/

/-- The first scope is within no other, and every other scope is within one that was there before. -/
structure IsLinked (store : Store) : Prop where
  rooted : 0 < store.size
  outermost : store.outer? 0 = none
  inner : ∀ scope < store.size, scope ≠ 0 → ∃ outer < scope, store.outer? scope = some outer

namespace IsLinked

variable {store : Store}

theorem blank : (Store.empty.addFrame none).2.IsLinked where
  rooted := by decide
  outermost := rfl
  inner scope inside other := absurd (Nat.lt_one_iff.mp inside) other

theorem outer_lt (linked : store.IsLinked) {scope outer : ScopeId} (inside : scope < store.size)
    (known : store.outer? scope = some outer) : outer < scope := by
  by_cases first : scope = 0
  · rw [first, linked.outermost] at known
    cases known
  · obtain ⟨earlier, before, isOuter⟩ := linked.inner scope inside first
    rw [isOuter] at known
    cases known
    exact before

theorem modify (linked : store.IsLinked) (scope : ScopeId) (change : Bindings → Bindings) :
    (store.modify scope change).IsLinked where
  rooted := by simpa using linked.rooted
  outermost := by simpa using linked.outermost
  inner := by simpa using linked.inner

theorem addFrame (linked : store.IsLinked) {outer : ScopeId} (inside : outer < store.size) :
    (store.addFrame (some outer)).2.IsLinked where
  rooted := by simp
  outermost := by
    rw [outer?_addFrame, if_neg (Nat.ne_of_lt linked.rooted)]
    exact linked.outermost
  inner scope within other := by
    rw [outer?_addFrame]
    by_cases isNew : scope = store.size
    · rw [if_pos isNew]
      exact ⟨outer, isNew ▸ inside, rfl⟩
    · rw [if_neg isNew]
      rw [size_addFrame] at within
      exact linked.inner scope (by omega) other

end IsLinked

/-! The way outward -/

/-- A scope, the scope around it and so on, to one that is within no other. -/
inductive Chain (store : Store) : ScopeId → List ScopeId → Prop where
  | outermost {scope : ScopeId} : store.outer? scope = none → Chain store scope [scope]
  | inner {scope outer : ScopeId} {rest : List ScopeId} :
    store.outer? scope = some outer → outer < scope → Chain store outer rest →
      Chain store scope (scope :: rest)

namespace Chain

variable {store : Store} {scope : ScopeId} {chain : List ScopeId}

theorem le (along : store.Chain scope chain) : ∀ other ∈ chain, other ≤ scope := by
  induction along with
  | outermost => simp
  | @inner scope _ _ _ before _ ih =>
    rw [List.forall_mem_cons]
    constructor
    · exact Nat.le_refl scope
    · exact fun other member => Nat.le_trans (ih other member) (Nat.le_of_lt before)

theorem descending (along : store.Chain scope chain) : chain.Pairwise (· > ·) := by
  induction along with
  | outermost => exact List.pairwise_singleton _ _
  | inner _ before along ih =>
    apply List.pairwise_cons.mpr
    constructor
    · exact fun other member => Nat.lt_of_le_of_lt (along.le other member) before
    · exact ih

theorem nodup (along : store.Chain scope chain) : chain.Nodup :=
  along.descending.imp fun after => Nat.ne_of_gt after

theorem getLast?_eq (along : store.Chain scope chain) (linked : store.IsLinked)
    (inside : scope < store.size) : chain.getLast? = some 0 := by
  induction along with
  | @outermost scope outermost =>
    by_cases first : scope = 0
    · rw [first]
      rfl
    · obtain ⟨outer, _, found⟩ := linked.inner scope inside first
      rw [outermost] at found
      cases found
  | inner _ before along ih =>
    have last := ih (Nat.lt_trans before inside)
    cases along <;> simpa [List.getLast?_cons_cons] using last

/-! What is looked up along the way -/

theorem outer_eq_none (outermost : store.outer? scope = none) {frame : Frame}
    (known : store.frames[scope]? = some frame) : frame.outer = none := by
  rw [outer?, known] at outermost
  exact outermost

theorem frame_of_outer? {outer : ScopeId} (known : store.outer? scope = some outer) :
    ∃ frame, store.frames[scope]? = some frame ∧ frame.outer = some outer :=
  Option.bind_eq_some_iff.mp known

theorem get_eq (along : store.Chain scope chain) (name : String) (span : Span) :
    store.get scope name span =
      match chain.findSome? fun place => (store.bindingsAt place).find? name with
      | some value => .ok value
      | none => .error (.undefinedVariable name span) := by
  induction along with
  | @outermost scope outermost =>
    rw [get, List.findSome?_singleton, bindingsAt]
    cases known : store.frames[scope]? with
    | none => rfl
    | some frame =>
      dsimp only
      cases Bindings.find? name frame.bindings with
      | some value => rfl
      | none => simp [outer_eq_none outermost known]
  | @inner scope outer rest known before _ ih =>
    obtain ⟨frame, isFrame, within⟩ := frame_of_outer? known
    rw [get, isFrame, List.findSome?_cons, bindingsAt, isFrame]
    dsimp only
    cases Bindings.find? name frame.bindings with
    | some value => rfl
    | none =>
      dsimp only
      rw [within]
      dsimp only
      rw [if_pos before, ih]

theorem owner?_eq (along : store.Chain scope chain) (name : String) :
    store.owner? scope name = chain.find? fun place => store.bindsLocally place name := by
  induction along with
  | @outermost scope outermost =>
    rw [owner?, List.find?_singleton, bindsLocally, bindingsAt]
    cases known : store.frames[scope]? with
    | none => rfl
    | some frame =>
      dsimp only
      rw [outer_eq_none outermost known]
  | @inner scope outer rest known before _ ih =>
    obtain ⟨frame, isFrame, within⟩ := frame_of_outer? known
    rw [owner?, isFrame, List.find?_cons, bindsLocally, bindingsAt, isFrame]
    dsimp only
    cases Bindings.binds name frame.bindings with
    | true => rfl
    | false =>
      dsimp only
      rw [within]
      dsimp only
      rw [if_pos before, ih]
      rfl

theorem visibleNames_eq (along : store.Chain scope chain) :
    store.visibleNames scope =
      chain.flatMap fun place => Bindings.names (store.bindingsAt place) := by
  induction along with
  | @outermost scope outermost =>
    rw [visibleNames, List.flatMap_singleton, bindingsAt]
    cases known : store.frames[scope]? with
    | none => rfl
    | some frame =>
      dsimp only
      rw [outer_eq_none outermost known]
      exact List.append_nil _
  | @inner scope outer rest known before _ ih =>
    obtain ⟨frame, isFrame, within⟩ := frame_of_outer? known
    rw [visibleNames, isFrame, List.flatMap_cons, bindingsAt, isFrame]
    dsimp only
    rw [within]
    dsimp only
    rw [if_pos before, ih]

end Chain

/-- From a scope outward: no scope comes twice, the last one is the first that was made, and along
the way names are found, assigned and listed. -/
structure Walks (store : Store) (scope : ScopeId) (chain : List ScopeId) : Prop where
  along : store.Chain scope chain
  distinct : chain.Nodup
  ends : chain.getLast? = some 0
  get : ∀ name span, store.get scope name span =
    match chain.findSome? fun place => (store.bindingsAt place).find? name with
    | some value => .ok value
    | none => .error (.undefinedVariable name span)
  assign : ∀ name value span, store.assign scope name value span =
    match chain.find? fun place => store.bindsLocally place name with
    | some owner => .ok (store.define owner name value)
    | none => .error (.undefinedTarget name span)
  names : store.visibleNames scope =
    chain.flatMap fun place => Bindings.names (store.bindingsAt place)

theorem IsLinked.exists_chain {store : Store} (linked : store.IsLinked) {scope : ScopeId}
    (inside : scope < store.size) : ∃ chain, store.Chain scope chain := by
  -- the scope around was made before
  induction scope using Nat.strongRecOn with
  | ind scope ih =>
    by_cases first : scope = 0
    · exact ⟨[scope], .outermost (first ▸ linked.outermost)⟩
    · obtain ⟨outer, before, known⟩ := linked.inner scope inside first
      obtain ⟨rest, along⟩ := ih outer before (Nat.lt_trans before inside)
      exact ⟨scope :: rest, .inner known before along⟩

theorem IsLinked.walks {store : Store} (linked : store.IsLinked) {scope : ScopeId}
    (inside : scope < store.size) : ∃ chain, store.Walks scope chain := by
  obtain ⟨chain, along⟩ := linked.exists_chain inside
  refine ⟨chain, along, along.nodup, along.getLast?_eq linked inside, along.get_eq, ?_,
    along.visibleNames_eq⟩
  intro name value span
  cases owned : chain.find? fun place => store.bindsLocally place name <;>
    simp [Store.assign, along.owner?_eq, owned]

/-! Scopes stay where they are -/

structure SameLinks (before after : Store) : Prop where
  size : before.size ≤ after.size
  outer : ∀ scope < before.size, after.outer? scope = before.outer? scope

namespace SameLinks

theorem refl (store : Store) : SameLinks store store := ⟨Nat.le_refl _, fun _ _ => rfl⟩

theorem trans {before middle after : Store} (first : SameLinks before middle)
    (second : SameLinks middle after) : SameLinks before after where
  size := Nat.le_trans first.size second.size
  outer scope inside := by
    rw [second.outer scope (Nat.lt_of_lt_of_le inside first.size), first.outer scope inside]

theorem modify (store : Store) (scope : ScopeId) (change : Bindings → Bindings) :
    SameLinks store (store.modify scope change) :=
  ⟨by simp, by simp⟩

theorem addFrame (store : Store) (outer : Option ScopeId) :
    SameLinks store (store.addFrame outer).2 where
  size := by simp
  outer scope inside := by rw [outer?_addFrame, if_neg (Nat.ne_of_lt inside)]

end SameLinks

end Store

end Scriptlet
