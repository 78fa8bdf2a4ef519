import Scriptlet.Proofs.Scope.Chain

/-! One step outward. What a scope does not bind itself is looked up in the scope around it. -/

set_option autoImplicit false

namespace Scriptlet

namespace Store

/-- The scope around a scope, if names are looked up there. -/
def around? (store : Store) (scope : ScopeId) : Option ScopeId :=
  (store.outer? scope).filter (· < scope)

section

variable {store : Store} {scope outer : ScopeId}

theorem lt_of_around? (known : store.around? scope = some outer) : outer < scope := by
  simpa using (Option.filter_eq_some_iff.mp known).2

theorem inside_of_around? (known : store.around? scope = some outer) : scope < store.size := by
  by_cases inside : scope < store.size
  · exact inside
  · rw [around?, outer?, Array.getElem?_eq_none (Nat.le_of_not_lt inside)] at known
    cases known

@[simp] theorem around?_define (store : Store) (scope other : ScopeId) (name : String)
    (value : Value) : (store.define scope name value).around? other = store.around? other := by
  rw [around?, outer?_define, around?]

theorem around?_addFrame (store : Store) {outer : ScopeId} (inside : outer < store.size)
    (other : ScopeId) :
    (store.addFrame (some outer)).2.around? other =
      if other = store.size then some outer else store.around? other := by
  rw [around?, outer?_addFrame]
  split
  · next same =>
    rw [same, Option.filter_eq_some_iff]
    exact ⟨rfl, by simpa using inside⟩
  · rfl

theorem around?_addFrame_of_lt (within : outer < store.size) {inner : ScopeId}
    (old : inner < store.size) :
    (store.addFrame (some outer)).2.around? inner = store.around? inner := by
  rw [around?_addFrame store within, if_neg (Nat.ne_of_lt old)]

theorem owner?_eq_around (store : Store) (scope : ScopeId) (name : String) :
    store.owner? scope name =
      if store.bindsLocally scope name then some scope
      else (store.around? scope).bind fun outer => store.owner? outer name := by
  rw [owner?, bindsLocally, bindingsAt, around?, outer?]
  cases store.frames[scope]? with
  | none => rfl
  | some frame =>
    dsimp only
    split
    · rfl
    · cases isOuter : frame.outer with
      | none => simp [isOuter]
      | some outer =>
        by_cases before : outer < scope <;> simp [isOuter, before, Option.filter]

theorem get_eq_owner (store : Store) (scope : ScopeId) (name : String) (span : Span) :
    store.get scope name span =
      match (store.owner? scope name).bind fun owner => (store.bindingsAt owner).find? name with
      | some value => .ok value
      | none => .error (.undefinedVariable name span) := by
  fun_induction Store.get store scope name span with
  | case1 scope known => rw [owner?, known]; rfl
  | case2 scope frame known value found =>
    have binds : Bindings.binds name frame.bindings = true := by simp [Bindings.binds, found]
    rw [owner?, known]
    simp [binds, bindingsAt, known, found]
  | case3 scope frame known missing outermost =>
    rw [owner?, known]
    simp [Bindings.binds, missing, outermost]
  | case4 scope frame known missing outer isOuter before ih =>
    rw [owner?, known]
    simp only [Bindings.binds, missing, isOuter, before, if_true]
    exact ih
  | case5 scope frame known missing outer isOuter before =>
    rw [owner?, known]
    simp [Bindings.binds, missing, isOuter, before]

theorem get_error {name : String} {span : Span} {error : ScopeError}
    (failed : store.get scope name span = .error error) : error = .undefinedVariable name span := by
  rw [get_eq_owner] at failed
  split at failed
  · cases failed
  · cases failed
    rfl

end

end Store

end Scriptlet
