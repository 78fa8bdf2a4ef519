import Scriptlet.Machine.Basic
import Scriptlet.Machine.Operation

/-! Evaluation of trees.

A node yields a value and a signal that tells how control left it. Every function takes a number of
steps and cuts off when they run out.
-/

set_option autoImplicit false

namespace Scriptlet

/-- How control left a node. -/
inductive Signal where
  | normal
  | broken
  | continued
  | returned (value : Value)

structure Completion where
  value : Value
  signal : Signal

namespace Evaluation

def normally (value : Value) : Evaluation Completion := pure ⟨value, .normal⟩

def leaving (signal : Signal) : Evaluation Completion := pure ⟨.nil, signal⟩

/-- The value of an expression; its signal is not looked at. -/
@[always_inline, inline]
def valueOf (action : Evaluation Completion) : Evaluation Value := do
  let completion ← action
  pure completion.value

mutual

def evaluate : Nat → Node → ScopeId → Evaluation Completion
  | 0, _, _ => Action.cutOff
  | fuel + 1, node, scope =>
    match node with
    | .number _ value => normally (.number value)
    | .string _ text => normally (.string text)
    | .boolean _ value => normally (.boolean value)
    | .nil _ => normally .nil
    | .reference span name => do
      let value ← lookUp scope name span
      normally value
    | .assign span name value => do
      let value ← valueOf (evaluate fuel value scope)
      assign scope name value span
      normally value
    | .declare _ name value => do
      let value ← valueOf (evaluate fuel value scope)
      define scope name value
      normally .nil
    | .unary span op operand => do
      let operand ← valueOf (evaluate fuel operand scope)
      let value ← ofExcept (op.apply operand span)
      normally value
    | .binary span op left right => do
      let left ← valueOf (evaluate fuel left scope)
      let right ← valueOf (evaluate fuel right scope)
      let value ← ofExcept (op.apply left right span)
      normally value
    | .logical _ op left right => do
      let left ← valueOf (evaluate fuel left scope)
      if op.decidedBy left then
        normally left
      else
        let right ← valueOf (evaluate fuel right scope)
        normally right
    | .call span callee arguments => do
      let callee ← valueOf (evaluate fuel callee scope)
      if callee.isCallable then
        let arguments ← evaluateEach fuel arguments scope
        let value ← call fuel callee arguments span
        normally value
      else
        Action.fail (.notCallable callee.type span)
    | .function _ name parameters body => do
      let closure ← makeClosure name parameters body scope
      define scope name (.closure closure)
      normally .nil
    | .block _ statements => do
      let inner ← openScope scope
      runEach fuel statements inner
    | .branch _ condition thenBranch elseBranch => do
      let test ← valueOf (evaluate fuel condition scope)
      if test.isTruthy then
        evaluate fuel thenBranch scope
      else
        match elseBranch with
        | some node => evaluate fuel node scope
        | none => normally .nil
    | .loop _ condition body increment => runLoop fuel condition body increment scope
    | .return _ value =>
      match value with
      | none => leaving (.returned .nil)
      | some node => do
        let value ← valueOf (evaluate fuel node scope)
        leaving (.returned value)
    | .break _ => leaving .broken
    | .continue _ => leaving .continued
    | .program _ statements => runEach fuel statements scope

def evaluateEach : Nat → List Node → ScopeId → Evaluation (List Value)
  | 0, _, _ => Action.cutOff
  | _ + 1, [], _ => pure []
  | fuel + 1, node :: rest, scope => do
    let value ← valueOf (evaluate fuel node scope)
    let values ← evaluateEach fuel rest scope
    pure (value :: values)

/-- Statements in order, up to the first that control leaves in another way than at its end. -/
def runEach : Nat → List Node → ScopeId → Evaluation Completion
  | 0, _, _ => Action.cutOff
  | _ + 1, [], _ => normally .nil
  | fuel + 1, statement :: rest, scope => do
    let completion ← evaluate fuel statement scope
    match completion.signal with
    | .normal => runEach fuel rest scope
    | signal => leaving signal

/-- The body again and again, with the increment after each round, while the condition holds. -/
def runLoop : Nat → Node → Node → Option Node → ScopeId → Evaluation Completion
  | 0, _, _, _, _ => Action.cutOff
  | fuel + 1, condition, body, increment, scope => do
    let test ← valueOf (evaluate fuel condition scope)
    if test.isTruthy then
      let completion ← evaluate fuel body scope
      match completion.signal with
      | .broken => normally .nil
      | .returned value => leaving (.returned value)
      | _ =>
        match increment with
        | none => runLoop fuel condition body increment scope
        | some step =>
          let _ ← valueOf (evaluate fuel step scope)
          runLoop fuel condition body increment scope
    else
      normally .nil

def call : Nat → Value → List Value → Span → Evaluation Value
  | 0, _, _, _ => Action.cutOff
  | fuel + 1, callee, arguments, span =>
    match callee with
    | .closure closure => do
      checkArity closure.name (.exactly closure.parameters.length) arguments.length span
      checkDepth span
      let scope ← openScope closure.scope
      bindEach scope closure.parameters arguments
      let completion ← oneDeeper (runEach fuel closure.body scope)
      match completion.signal with
      | .returned value => pure value
      | _ => pure .nil
    | .native native => do
      checkArity native.name native.arity arguments.length span
      callNative native arguments span
    | other => Action.fail (.notCallable other.type span)

end

/-- Top-level statements in order, up to one that returns. The result is what that one returns, or
else the value of the last statement if it is an expression. -/
def executeEach (fuel : Nat) (scope : ScopeId) :
    List Node → Option Value → Evaluation (Option Value)
  | [], last => pure last
  | statement :: rest, _ => do
    let completion ← evaluate fuel statement scope
    match completion.signal with
    | .returned value => pure (some value)
    | _ => executeEach fuel scope rest (if statement.isExpression then some completion.value else none)

/-- Run a program, or any other node as if it were the only statement of one, in the root scope. -/
def execute (fuel : Nat) (node : Node) : Evaluation (Option Value) :=
  match node with
  | .program _ statements => executeEach fuel Machine.root statements none
  | _ => executeEach fuel Machine.root [node] none

end Evaluation

end Scriptlet
