import Scriptlet.Failure.Basic
import Scriptlet.Grammar.Program
import Scriptlet.Machine.Evaluation
import Scriptlet.Text.NameSet

/-! One source after the other on the same machine. -/

set_option autoImplicit false

namespace Scriptlet

namespace Outcome

def mapError {ε ε' σ α : Type} (change : ε → ε') : Outcome ε σ α → Outcome ε' σ α
  | done value state => done value state
  | failed error state => failed (change error) state
  | cutOff => cutOff

end Outcome

namespace Machine

def run (fuel : Nat) (source : List Char) : Action Failure Machine (Option Value) := fun machine =>
  match readProgram source with
  | .error error => .failed (Failure.ofSyntaxError error) machine
  | .ok program => (Evaluation.execute fuel program machine).mapError .runtime

/-- The names of the root scope, each once and in order, with what they are bound to. -/
def globals (machine : Machine) : List (String × Value) :=
  let bindings := machine.store.bindingsAt root
  (NameSet.ofList (Bindings.names bindings)).filterMap fun name =>
    (Bindings.find? name bindings).map fun value => (name, value)

/-- Write to the sink on behalf of the host itself; a text without room is lost. -/
def say (machine : Machine) (text : String) : Machine :=
  match machine.host.sink.write? text with
  | some sink => { machine with host := { machine.host with sink := sink } }
  | none => machine

end Machine

end Scriptlet
