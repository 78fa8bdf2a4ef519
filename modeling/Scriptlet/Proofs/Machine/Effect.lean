import Scriptlet.Machine.Basic
import Scriptlet.Machine.Operation
import Scriptlet.Proofs.Contract

/-! What evaluation does to a machine at once, without evaluating anything. -/

set_option autoImplicit false

namespace Scriptlet

inductive Effect where
  | lookUp (scope : ScopeId) (name : String) (span : Span)
  | assign (scope : ScopeId) (name : String) (value : Value) (span : Span)
  | define (scope : ScopeId) (name : String) (value : Value)
  | openScope (outer : ScopeId)
  | makeClosure (name : String) (parameters : List String) (body : List Node) (scope : ScopeId)
  | applyUnary (op : UnaryOp) (operand : Value) (span : Span)
  | applyBinary (op : BinaryOp) (left right : Value) (span : Span)
  | refuse (callee : Value) (span : Span)
  | checkArity (name : String) (expected : Arity) (found : Nat) (span : Span)
  | checkDepth (span : Span)
  | callNative (native : Native) (arguments : List Value) (span : Span)

namespace Effect

abbrev Result : Effect → Type
  | lookUp .. => Value
  | assign .. => Unit
  | define .. => Unit
  | openScope .. => ScopeId
  | makeClosure .. => Closure
  | applyUnary .. => Value
  | applyBinary .. => Value
  | refuse .. => Empty
  | checkArity .. => Unit
  | checkDepth .. => Unit
  | callNative .. => Value

def run : (effect : Effect) → Evaluation effect.Result
  | lookUp scope name span => Evaluation.lookUp scope name span
  | assign scope name value span => Evaluation.assign scope name value span
  | define scope name value => Evaluation.define scope name value
  | openScope outer => Evaluation.openScope outer
  | makeClosure name parameters body scope => Evaluation.makeClosure name parameters body scope
  | applyUnary op operand span => Evaluation.ofExcept (op.apply operand span)
  | applyBinary op left right span => Evaluation.ofExcept (op.apply left right span)
  | refuse callee span => Action.fail (.notCallable callee.type span)
  | checkArity name expected found span => Evaluation.checkArity name expected found span
  | checkDepth span => Evaluation.checkDepth span
  | callNative native arguments span => Evaluation.callNative native arguments span

/-- What an effect gives back and how it leaves the machine, case by case. -/
inductive Done : (change : Effect) → Machine → change.Result → Machine → Prop where
  | lookUp {scope : ScopeId} {name : String} {span : Span} {machine : Machine} {value : Value} :
    machine.store.get scope name span = .ok value →
      Done (.lookUp scope name span) machine value machine
  | assign {scope owner : ScopeId} {name : String} {value : Value} {span : Span}
    {machine : Machine} :
    machine.store.owner? scope name = some owner →
      Done (.assign scope name value span) machine ()
        { machine with store := machine.store.define owner name value }
  | define {scope : ScopeId} {name : String} {value : Value} {machine : Machine} :
    Done (.define scope name value) machine ()
      { machine with store := machine.store.define scope name value }
  | openScope {outer : ScopeId} {machine : Machine} :
    Done (.openScope outer) machine (machine.store.addFrame (some outer)).1
      { machine with store := (machine.store.addFrame (some outer)).2 }
  | makeClosure {name : String} {parameters : List String} {body : List Node} {scope : ScopeId}
    {machine : Machine} :
    Done (.makeClosure name parameters body scope) machine
      ⟨machine.closures, name, parameters, body, scope⟩
      { machine with closures := machine.closures + 1 }
  | applyUnary {op : UnaryOp} {operand value : Value} {span : Span} {machine : Machine} :
    op.apply operand span = .ok value → Done (.applyUnary op operand span) machine value machine
  | applyBinary {op : BinaryOp} {left right value : Value} {span : Span} {machine : Machine} :
    op.apply left right span = .ok value →
      Done (.applyBinary op left right span) machine value machine
  | checkArity {name : String} {expected : Arity} {found : Nat} {span : Span}
    {machine : Machine} :
    expected.accepts found → Done (.checkArity name expected found span) machine () machine
  | checkDepth {span : Span} {machine : Machine} :
    machine.depth < machine.limit → Done (.checkDepth span) machine () machine
  | callNative {native : Native} {arguments : List Value} {span : Span} {machine : Machine}
    {behaviour : Behaviour} {value : Value} {host : Host} :
    machine.behaviours[native.identity]? = some behaviour →
      behaviour arguments span machine.host = .done value host →
        Done (.callNative native arguments span) machine value { machine with host := host }

/-- The error of an effect and how it leaves the machine, case by case. -/
inductive Fails : Effect → Machine → RuntimeError → Machine → Prop where
  | lookUp {scope : ScopeId} {name : String} {span : Span} {machine : Machine}
    {error : ScopeError} :
    machine.store.get scope name span = .error error →
      Fails (.lookUp scope name span) machine (.unbound error) machine
  | assign {scope : ScopeId} {name : String} {value : Value} {span : Span} {machine : Machine} :
    machine.store.owner? scope name = none →
      Fails (.assign scope name value span) machine (.unbound (.undefinedTarget name span)) machine
  | applyUnary {op : UnaryOp} {operand : Value} {span : Span} {machine : Machine}
    {error : RuntimeError} :
    op.apply operand span = .error error → Fails (.applyUnary op operand span) machine error machine
  | applyBinary {op : BinaryOp} {left right : Value} {span : Span} {machine : Machine}
    {error : RuntimeError} :
    op.apply left right span = .error error →
      Fails (.applyBinary op left right span) machine error machine
  | refuse {callee : Value} {span : Span} {machine : Machine} :
    Fails (.refuse callee span) machine (.notCallable callee.type span) machine
  | checkArity {name : String} {expected : Arity} {found : Nat} {span : Span}
    {machine : Machine} :
    ¬expected.accepts found →
      Fails (.checkArity name expected found span) machine (.arityMismatch name expected found span)
        machine
  | checkDepth {span : Span} {machine : Machine} :
    machine.limit ≤ machine.depth →
      Fails (.checkDepth span) machine (.stackOverflow machine.limit span) machine
  | unknownNative {native : Native} {arguments : List Value} {span : Span} {machine : Machine} :
    machine.behaviours[native.identity]? = none →
      Fails (.callNative native arguments span) machine (.notCallable .function span) machine
  | callNative {native : Native} {arguments : List Value} {span : Span} {machine : Machine}
    {behaviour : Behaviour} {error : RuntimeError} {host : Host} :
    machine.behaviours[native.identity]? = some behaviour →
      behaviour arguments span machine.host = .failed error host →
        Fails (.callNative native arguments span) machine error { machine with host := host }

theorem meets_run (change : Effect) (machine : Machine) :
    (change.run machine).Meets (Done change machine) (Fails change machine) := by
  cases change with
  | lookUp scope name span =>
    unfold run Evaluation.lookUp
    dsimp only
    cases found : machine.store.get scope name span with
    | ok value => exact Done.lookUp found
    | error error => exact Fails.lookUp found
  | assign scope name value span =>
    unfold run Evaluation.assign
    dsimp only
    cases found : machine.store.owner? scope name with
    | some owner => exact Done.assign found
    | none => exact Fails.assign found
  | define scope name value => exact Done.define
  | openScope outer => exact Done.openScope
  | makeClosure name parameters body scope => exact Done.makeClosure
  | applyUnary op operand span =>
    rw [run, Evaluation.ofExcept.eq_def]
    cases applied : op.apply operand span with
    | ok value => exact Done.applyUnary applied
    | error error => exact Fails.applyUnary applied
  | applyBinary op left right span =>
    rw [run, Evaluation.ofExcept.eq_def]
    cases applied : op.apply left right span with
    | ok value => exact Done.applyBinary applied
    | error error => exact Fails.applyBinary applied
  | refuse callee span => exact Fails.refuse
  | checkArity name expected found span =>
    unfold run Evaluation.checkArity
    dsimp only
    by_cases accepted : expected.accepts found
    · simp only [accepted, if_true]
      exact Done.checkArity accepted
    · simp only [accepted]
      exact Fails.checkArity accepted
  | checkDepth span =>
    unfold run Evaluation.checkDepth
    dsimp only
    by_cases full : machine.limit ≤ machine.depth
    · simp only [full]
      exact Fails.checkDepth full
    · simp only [full]
      exact Done.checkDepth (Nat.lt_of_not_le full)
  -- a function of the host sees no more of the machine than the host
  | callNative native arguments span =>
    unfold run Evaluation.callNative
    dsimp only
    cases known : machine.behaviours[native.identity]? with
    | none => exact Fails.unknownNative known
    | some behaviour =>
      dsimp only
      cases outcome : behaviour arguments span machine.host with
      | done value host => exact Done.callNative known outcome
      | failed error host => exact Fails.callNative known outcome
      | cutOff => trivial

theorem done_of_run {change : Effect} {machine after : Machine} {result : change.Result}
    (done : change.run machine = .done result after) : Done change machine result after := by
  have meets := change.meets_run machine
  rw [done] at meets
  exact meets

theorem fails_of_run {change : Effect} {machine after : Machine} {error : RuntimeError}
    (failed : change.run machine = .failed error after) : Fails change machine error after := by
  have meets := change.meets_run machine
  rw [failed] at meets
  exact meets

end Effect

end Scriptlet
