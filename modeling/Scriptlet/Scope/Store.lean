import Scriptlet.Value.Basic

/-! Scopes: frames of bindings, each within an outer one that was made before it.

A name belongs to the nearest frame that binds it, from a scope outward.
-/

set_option autoImplicit false

namespace Scriptlet

/-- Bindings of names, at most one for each. -/
abbrev Bindings := List (String × Value)

namespace Bindings

def put (name : String) (value : Value) : Bindings → Bindings
  | [] => [(name, value)]
  | (bound, old) :: rest =>
    if bound = name then (name, value) :: rest else (bound, old) :: put name value rest

def find? (name : String) : Bindings → Option Value
  | [] => none
  | (bound, value) :: rest => if bound = name then some value else find? name rest

def binds (name : String) (bindings : Bindings) : Bool := (find? name bindings).isSome

def names (bindings : Bindings) : List String := bindings.map (·.1)

end Bindings

structure Frame where
  outer : Option ScopeId
  bindings : Bindings

/-- All frames in the order they were made; a scope is the place of its frame. -/
structure Store where
  frames : Array Frame

/-- A name that no frame around a scope binds. -/
inductive ScopeError where
  | undefinedVariable (name : String) (span : Span)
  | undefinedTarget (name : String) (span : Span)
  deriving DecidableEq

namespace ScopeError

def span : ScopeError → Span
  | undefinedVariable _ span => span
  | undefinedTarget _ span => span

def message : ScopeError → String
  | undefinedVariable name _ => s!"undefined variable '{name}'"
  | undefinedTarget name _ => s!"cannot assign to undefined variable '{name}'"

end ScopeError

namespace Store

def empty : Store := ⟨#[]⟩

/-- Make a frame and name its place. -/
def addFrame (store : Store) (outer : Option ScopeId) : ScopeId × Store :=
  (store.frames.size, ⟨store.frames.push ⟨outer, []⟩⟩)

def bindingsAt (store : Store) (scope : ScopeId) : Bindings :=
  match store.frames[scope]? with
  | some frame => frame.bindings
  | none => []

def modify (store : Store) (scope : ScopeId) (change : Bindings → Bindings) : Store :=
  ⟨store.frames.modify scope fun frame => { frame with bindings := change frame.bindings }⟩

/-- Bind a name in the frame of a scope itself. -/
def define (store : Store) (scope : ScopeId) (name : String) (value : Value) : Store :=
  store.modify scope (Bindings.put name value)

def clear (store : Store) (scope : ScopeId) : Store := store.modify scope fun _ => []

def bindsLocally (store : Store) (scope : ScopeId) (name : String) : Bool :=
  Bindings.binds name (store.bindingsAt scope)

def get (store : Store) (scope : ScopeId) (name : String) (span : Span) :
    Except ScopeError Value :=
  match store.frames[scope]? with
  | none => .error (.undefinedVariable name span)
  | some frame =>
    match Bindings.find? name frame.bindings with
    | some value => .ok value
    | none =>
      match frame.outer with
      | none => .error (.undefinedVariable name span)
      | some outer =>
        if outer < scope then get store outer name span
        else .error (.undefinedVariable name span)
termination_by scope

/-- The nearest scope, from one outward, whose own frame binds a name. -/
def owner? (store : Store) (scope : ScopeId) (name : String) : Option ScopeId :=
  match store.frames[scope]? with
  | none => none
  | some frame =>
    if Bindings.binds name frame.bindings then some scope
    else
      match frame.outer with
      | none => none
      | some outer => if outer < scope then owner? store outer name else none
termination_by scope

/-- Give a new value to a name as seen from a scope; this never adds a binding. -/
def assign (store : Store) (scope : ScopeId) (name : String) (value : Value) (span : Span) :
    Except ScopeError Store :=
  match store.owner? scope name with
  | some owner => .ok (store.define owner name value)
  | none => .error (.undefinedTarget name span)

/-- The names that are bound around a scope; one that is shadowed comes again. -/
def visibleNames (store : Store) (scope : ScopeId) : List String :=
  match store.frames[scope]? with
  | none => []
  | some frame =>
    Bindings.names frame.bindings ++
      match frame.outer with
      | none => []
      | some outer => if outer < scope then visibleNames store outer else []
termination_by scope

end Store

end Scriptlet
