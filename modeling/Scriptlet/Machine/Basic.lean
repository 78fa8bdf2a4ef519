import Scriptlet.Machine.Builtin

/-! The state of a running program, and the steps that change it. -/

set_option autoImplicit false

namespace Scriptlet

/-- `depth` counts the calls of program functions under way, of which `limit` are allowed; `closures`
counts the functions made so far. -/
structure Machine where
  store : Store
  behaviours : Array Behaviour
  host : Host
  depth : Nat
  limit : Nat
  closures : Nat

abbrev Evaluation (α : Type) := Action RuntimeError Machine α

namespace Machine

/-- The scope that all others are within. -/
def root : ScopeId := 0

def defaultLimit : Nat := 512

def register (machine : Machine) (name : String) (arity : Arity) (behaviour : Behaviour) :
    Machine :=
  let native : Native := ⟨machine.behaviours.size, name, arity⟩
  { machine with
    store := machine.store.define root name (.native native)
    behaviours := machine.behaviours.push behaviour }

def start (limit : Nat) (sink : Sink) (clock : Clock) : Machine :=
  let blank : Machine :=
    { store := (Store.empty.addFrame none).2
      behaviours := #[]
      host := ⟨sink, clock, 0⟩
      depth := 0
      limit := limit
      closures := 0 }
  Builtin.all.foldl (fun machine entry => machine.register entry.1 entry.2.1 entry.2.2) blank

end Machine

namespace Evaluation

def ofExcept {α : Type} (result : Except RuntimeError α) : Evaluation α :=
  match result with
  | .ok value => pure value
  | .error error => Action.fail error

def lookUp (scope : ScopeId) (name : String) (span : Span) : Evaluation Value := fun machine =>
  match machine.store.get scope name span with
  | .ok value => .done value machine
  | .error error => .failed (.unbound error) machine

def assign (scope : ScopeId) (name : String) (value : Value) (span : Span) : Evaluation Unit :=
  fun machine =>
    match machine.store.owner? scope name with
    | some owner => .done () { machine with store := machine.store.define owner name value }
    | none => .failed (.unbound (.undefinedTarget name span)) machine

def define (scope : ScopeId) (name : String) (value : Value) : Evaluation Unit :=
  Action.update fun machine => { machine with store := machine.store.define scope name value }

def openScope (outer : ScopeId) : Evaluation ScopeId := fun machine =>
  let (scope, store) := machine.store.addFrame (some outer)
  .done scope { machine with store := store }

/-- Make a function in a scope; each time it is a new one. -/
def makeClosure (name : String) (parameters : List String) (body : List Node) (scope : ScopeId) :
    Evaluation Closure := fun machine =>
  .done ⟨machine.closures, name, parameters, body, scope⟩
    { machine with closures := machine.closures + 1 }

def checkArity (name : String) (expected : Arity) (found : Nat) (span : Span) : Evaluation Unit :=
  if expected.accepts found then pure ()
  else Action.fail (.arityMismatch name expected found span)

/-- Refuse a call when as many as allowed are under way. -/
def checkDepth (span : Span) : Evaluation Unit := fun machine =>
  if machine.limit ≤ machine.depth then .failed (.stackOverflow machine.limit span) machine
  else .done () machine

/-- Count one more call while an action runs, however it ends. -/
def oneDeeper {α : Type} (action : Evaluation α) : Evaluation α :=
  Action.around (fun machine => { machine with depth := machine.depth + 1 })
    (fun machine => { machine with depth := machine.depth - 1 }) action

def callNative (native : Native) (arguments : List Value) (span : Span) : Evaluation Value :=
  fun machine =>
    match machine.behaviours[native.identity]? with
    | none => .failed (.notCallable .function span) machine
    | some behaviour =>
      match behaviour arguments span machine.host with
      | .done value host => .done value { machine with host := host }
      | .failed error host => .failed error { machine with host := host }
      | .cutOff => .cutOff

def bindEach (scope : ScopeId) : List String → List Value → Evaluation Unit
  | name :: names, value :: values => do
    define scope name value
    bindEach scope names values
  | _, _ => pure ()

end Evaluation

end Scriptlet
