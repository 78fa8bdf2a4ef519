import Mathlib.Logic.Relation
import Scriptlet.Proofs.Scope.Bound
import Scriptlet.Proofs.Scope.Chain

/-! The scopes that can be reached from a scope, and what is found and changed among them.

A scope leads to the one around it, and to those that the functions bound in it have been made in.
-/

set_option autoImplicit false

namespace Scriptlet

def Value.scope? : Value → Option ScopeId
  | .closure made => some made.scope
  | _ => none

def Value.LeadsInto (within : ScopeId → Prop) (value : Value) : Prop :=
  ∀ scope ∈ value.scope?, within scope

theorem Value.LeadsInto.mono {value : Value} {within wider : ScopeId → Prop}
    (leads : value.LeadsInto within) (larger : ∀ scope, within scope → wider scope) :
    value.LeadsInto wider := fun scope member => larger scope (leads scope member)

namespace Store

inductive Links (store : Store) (scope : ScopeId) : ScopeId → Prop where
  | outer {outer : ScopeId} : store.outer? scope = some outer → Links store scope outer
  | bound {entry : String × Value} {inner : ScopeId} :
    entry ∈ store.bindingsAt scope → inner ∈ entry.2.scope? → Links store scope inner

/-- A scope that links lead to from one of some scopes. -/
def Reachable (store : Store) (roots : ScopeId → Prop) (scope : ScopeId) : Prop :=
  ∃ root, roots root ∧ Relation.ReflTransGen store.Links root scope

/-- All links lead to scopes that are there. -/
def IsWhole (store : Store) : Prop :=
  ∀ scope other, scope < store.size → store.Links scope other → other < store.size

/-- Scopes that no link leads out of. -/
def IsClosed (store : Store) (within : ScopeId → Prop) : Prop :=
  ∀ scope, within scope → (∀ outer ∈ store.outer? scope, within outer) ∧
    (store.bindingsAt scope).All (Value.LeadsInto within)

namespace IsClosed

variable {store : Store} {within : ScopeId → Prop}

theorem of_links (links : ∀ scope other, within scope → store.Links scope other → within other) :
    store.IsClosed within := by
  intro scope inside
  constructor
  · exact fun outer known => links scope outer inside (.outer known)
  · exact fun entry member inner known => links scope inner inside (.bound member known)

theorem outer (closed : store.IsClosed within) {scope outer : ScopeId} {frame : Frame}
    (inside : within scope) (known : store.frames[scope]? = some frame)
    (isOuter : frame.outer = some outer) : within outer :=
  (closed scope inside).1 outer (by simp [outer?, known, isOuter])

theorem of_reachable (closed : store.IsClosed within) {roots : ScopeId → Prop}
    (inside : ∀ root, roots root → within root) {scope : ScopeId}
    (reachable : store.Reachable roots scope) : within scope := by
  obtain ⟨root, isRoot, path⟩ := reachable
  induction path with
  | refl => exact inside root isRoot
  | tail _ link ih =>
    cases link with
    | outer known => exact (closed _ ih).1 _ known
    | bound member known => exact (closed _ ih).2 _ member _ known

theorem define (closed : store.IsClosed within) (scope : ScopeId) (name : String) {value : Value}
    (leads : value.LeadsInto within) : (store.define scope name value).IsClosed within := by
  intro other inside
  obtain ⟨outer, bound⟩ := closed other inside
  constructor
  · rwa [outer?_define]
  · rw [Store.define, bindingsAt_modify]
    split
    · exact bound.put name leads
    · exact bound

theorem addFrame (closed : store.IsClosed within) {outer : ScopeId} (inside : within outer)
    {wider : ScopeId → Prop}
    (wider_iff : ∀ scope, wider scope ↔ within scope ∨ scope = store.size) :
    (store.addFrame (some outer)).2.IsClosed wider := by
  have larger (scope : ScopeId) (old : within scope) : wider scope :=
    (wider_iff scope).mpr (.inl old)
  have opened : (store.addFrame (some outer)).2.outer? store.size = some outer := by
    rw [outer?_addFrame, if_pos rfl]
  intro scope isWider
  constructor
  · intro around known
    by_cases isNew : scope = store.size
    · rw [isNew, opened] at known
      cases known
      exact larger _ inside
    · rw [outer?_addFrame, if_neg isNew] at known
      have old := ((wider_iff scope).mp isWider).resolve_right isNew
      exact larger around ((closed scope old).1 around known)
  · rw [bindingsAt_addFrame]
    rcases (wider_iff scope).mp isWider with old | rfl
    · exact fun entry member => ((closed scope old).2 entry member).mono larger
    · simp [bindingsAt, Bindings.All]

end IsClosed

/-! Two stores that agree on scopes that no link leads out of -/

def AgreesOn (within : ScopeId → Prop) (store other : Store) : Prop :=
  ∀ scope, within scope → store.frames[scope]? = other.frames[scope]?

section

variable {store other : Store} {within : ScopeId → Prop} {scope : ScopeId} {name : String}

namespace AgreesOn

theorem get_eq (agrees : store.AgreesOn within other) (closed : store.IsClosed within)
    (inside : within scope) (span : Span) :
    store.get scope name span = other.get scope name span := by
  induction scope using Nat.strongRecOn with
  | ind scope ih =>
    rw [get, get.eq_def other, ← agrees scope inside]
    cases known : store.frames[scope]? with
    | none => rfl
    | some frame =>
      dsimp only
      cases Bindings.find? name frame.bindings with
      | some value => rfl
      | none =>
        cases isOuter : frame.outer with
        | none => rfl
        | some outer =>
          have around := closed.outer inside known isOuter
          dsimp only
          split
          · next before => exact ih outer before around
          · rfl

theorem owner?_eq (agrees : store.AgreesOn within other) (closed : store.IsClosed within)
    (inside : within scope) : store.owner? scope name = other.owner? scope name := by
  induction scope using Nat.strongRecOn with
  | ind scope ih =>
    rw [owner?, owner?.eq_def other, ← agrees scope inside]
    cases known : store.frames[scope]? with
    | none => rfl
    | some frame =>
      dsimp only
      split
      · rfl
      · cases isOuter : frame.outer with
        | none => rfl
        | some outer =>
          have around := closed.outer inside known isOuter
          dsimp only
          split
          · next before => exact ih outer before around
          · rfl

theorem modify (agrees : store.AgreesOn within other) (place : ScopeId)
    (change : Bindings → Bindings) :
    (store.modify place change).AgreesOn within (other.modify place change) := by
  intro scope inside
  rw [frames_modify, frames_modify, agrees scope inside]

end AgreesOn

theorem IsClosed.of_get (closed : store.IsClosed within) (inside : within scope) {span : Span}
    {value : Value} (found : store.get scope name span = .ok value) : value.LeadsInto within := by
  fun_induction Store.get store scope name span with
  | case1 => cases found
  | case2 scope frame known value bound =>
    cases found
    have leads := (closed scope inside).2
    rw [bindingsAt, known] at leads
    exact leads.of_find? bound
  | case3 => cases found
  | case4 scope frame known _ outer isOuter _ ih =>
    exact ih (closed.outer inside known isOuter) found
  | case5 => cases found

theorem IsClosed.of_owner? (closed : store.IsClosed within) (inside : within scope)
    {owner : ScopeId} (found : store.owner? scope name = some owner) : within owner := by
  fun_induction Store.owner? store scope name with
  | case1 => cases found
  | case2 =>
    cases found
    exact inside
  | case3 => cases found
  | case4 scope frame known _ outer isOuter _ ih =>
    exact ih (closed.outer inside known isOuter) found
  | case5 => cases found

end

end Store

end Scriptlet
