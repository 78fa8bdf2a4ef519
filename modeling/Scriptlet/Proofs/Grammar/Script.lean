import Scriptlet.Grammar.Statement
import Scriptlet.Proofs.Grammar.Passes

/-! Reading laid out as scripts: what is looked at, which tokens are given away, and which parts of
the grammar are read on the way.
-/

set_option autoImplicit false

namespace Scriptlet.Parse

/-- What is read by a function of its own that can come to read itself again. -/
inductive Part where
  | expression
  | operation (least : Nat)
  | climb (least : Nat) (left : Node)
  | unary
  | call
  | calls (callee : Node)
  | arguments
  | someArguments
  | primary
  | someParameters
  | statement
  | definition
  | block
  | sequence (inBraces : Bool)
  | branch
  | whileLoop
  | forLoop

namespace Part

abbrev Result : Part → Type
  | arguments => List Node
  | someArguments => List Node
  | someParameters => List String
  | block => List Node × Span
  | sequence _ => List Node
  | _ => Node

def run (fuel : Nat) : (part : Part) → Parse part.Result
  | expression => Parse.expression fuel
  | operation least => Parse.operation fuel least
  | climb least left => Parse.climb fuel least left
  | unary => Parse.unary fuel
  | call => Parse.call fuel
  | calls callee => Parse.calls fuel callee
  | arguments => Parse.arguments fuel
  | someArguments => Parse.someArguments fuel
  | primary => Parse.primary fuel
  | someParameters => Parse.someParameters fuel
  | statement => Parse.statement fuel
  | definition => Parse.definition fuel
  | block => Parse.block fuel
  | sequence inBraces => Parse.sequence fuel inBraces
  | branch => Parse.branch fuel
  | whileLoop => Parse.whileLoop fuel
  | forLoop => Parse.forLoop fuel

end Part

/-- The loops that a part is read in: those around it, one more, or none. -/
inductive Loops where
  | same | oneMore | none

namespace Loops

def enter (loops : Loops) (reader : Reader) : Reader :=
  match loops with
  | same => reader
  | oneMore => { reader with loops := reader.loops + 1 }
  | none => { reader with loops := 0 }

def around {α : Type} (loops : Loops) (part : Parse α) : Parse α :=
  match loops with
  | same => part
  | oneMore => insideLoop part
  | none => outsideLoops part

end Loops

inductive Script (α : Type) where
  | done (value : α)
  | failed (error : SyntaxError)
  | look (next : Reader → Script α)
  | advance (next : Token → Script α)
  | part (loops : Loops) (inner : Part) (next : inner.Result → Script α)

namespace Script

variable {α : Type}

def run (fuel : Nat) : Script α → Parse α
  | done value => pure value
  | failed error => Action.fail error
  | look next => fun reader => (next reader).run fuel reader
  | advance next => Parse.advance >>= fun token => (next token).run fuel
  | part loops inner next => loops.around (inner.run fuel) >>= fun result => (next result).run fuel

def expect (symbol : Mark) (expected : Expectation) (next : Token → Script α) : Script α :=
  .look fun reader =>
    if reader.current.kind == .mark symbol then .advance next
    else .failed (.unexpectedToken expected reader.current.kind reader.current.span)

def identifier (next : String → Script α) : Script α :=
  .look fun reader =>
    match reader.current.kind with
    | .identifier name => .advance fun _ => next name
    | kind => .failed (.expectedIdentifier kind reader.current.span)

def expression (next : Node → Script α) : Script α := .part .same .expression next

def assignment (target value : Node) : Script Node :=
  match target with
  | .reference span name => .done (.assign (span.merge value.span) name value)
  | _ => .failed (.invalidTarget target.span)

def declaration (next : Node → Script α) : Script α :=
  .advance fun word =>
  .identifier fun name =>
  .expect .equal .equalAfterName fun _ =>
  .expression fun value =>
  .expect .semicolon .semicolonAfterLet fun semicolon =>
  next (.declare (word.span.merge semicolon.span) name value)

def parameters (next : List String → Script α) : Script α :=
  .look fun reader =>
    if reader.current.kind == .mark .rightParen then next []
    else .part .same .someParameters next

def condition (word : Keyword) (next : Node → Script α) : Script α :=
  .expect .leftParen (.parenAfter word) fun _ =>
  .expression fun node =>
  .expect .rightParen .parenAfterCondition fun _ =>
  next node

def optional (symbol : Mark) (next : Option Node → Script α) : Script α :=
  .look fun reader =>
    if reader.current.kind == .mark symbol then next none
    else .expression fun node => next (some node)

def returning : Script Node :=
  .advance fun word =>
  .optional .semicolon fun value =>
  .expect .semicolon .semicolonAfterReturn fun semicolon =>
  .done (.return (word.span.merge semicolon.span) value)

def loopControl (word : Keyword) (node : Span → Node) : Script Node :=
  .look fun reader =>
    if reader.loops != 0 then
      .advance fun found =>
      .expect .semicolon (.semicolonAfter word) fun semicolon =>
      .done (node (found.span.merge semicolon.span))
    else
      .failed (.controlOutsideLoop word reader.current.span)

def expressionStatement : Script Node :=
  .expression fun node =>
  .look fun reader =>
    if reader.current.kind == .endOfInput then .done node
    else .expect .semicolon .semicolonAfterExpression fun _ => .done node

def initializer (next : Option Node → Script α) : Script α :=
  .look fun reader =>
    match reader.current.kind with
    | .mark .semicolon => .advance fun _ => next none
    | .keyword .letWord => .declaration fun node => next (some node)
    | _ =>
      .expression fun node =>
      .expect .semicolon .semicolonAfterInitializer fun _ =>
      next (some node)

def loopCondition (next : Node → Script α) : Script α :=
  .look fun reader =>
    if reader.current.kind = .mark .semicolon then
      next (.boolean (Span.point reader.current.span.start) true)
    else
      .expression next

end Script

def Part.script : (part : Part) → Script part.Result
  | expression =>
    .part .same (.operation Operator.loosest) fun target =>
    .look fun reader =>
      if reader.current.kind == .mark .equal then
        .advance fun _ =>
        .expression fun value =>
        .assignment target value
      else
        .done target
  | operation least =>
    .part .same .unary fun left =>
    .part .same (.climb least left) .done
  | climb least left =>
    .look fun reader =>
      match Operator.ofKind? reader.current.kind with
      | none => .done left
      | some (precedence, operator) =>
        if precedence < least then
          .done left
        else
          .advance fun _ =>
          .part .same (.operation (precedence + 1)) fun right =>
          .part .same (.climb least (operator.join left right)) .done
  | unary =>
    .look fun reader =>
      match UnaryOp.ofKind? reader.current.kind with
      | none => .part .same .call .done
      | some op =>
        .advance fun sign =>
        .part .same .unary fun operand =>
        .done (.unary (sign.span.merge operand.span) op operand)
  | call =>
    .part .same .primary fun callee =>
    .part .same (.calls callee) .done
  | calls callee =>
    .look fun reader =>
      if reader.current.kind == .mark .leftParen then
        .advance fun _ =>
        .part .same .arguments fun found =>
        .expect .rightParen .parenAfterArguments fun closing =>
        .part .same (.calls (.call (callee.span.merge closing.span) callee found)) .done
      else
        .done callee
  | arguments =>
    .look fun reader =>
      if reader.current.kind == .mark .rightParen then .done []
      else .part .same .someArguments .done
  | someArguments =>
    .expression fun first =>
    .look fun reader =>
      if reader.current.kind == .mark .comma then
        .advance fun _ =>
        .part .same .someArguments fun rest =>
        .done (first :: rest)
      else
        .done [first]
  | primary =>
    .look fun reader =>
      match atom? reader.current with
      | some node => .advance fun _ => .done node
      | none =>
        if reader.current.kind = .mark .leftParen then
          .advance fun opening =>
          .expression fun inner =>
          .expect .rightParen .parenAfterExpression fun closing =>
          .done (inner.withSpan (opening.span.merge closing.span))
        else
          .failed (.expectedExpression reader.current.kind reader.current.span)
  | someParameters =>
    .identifier fun first =>
    .look fun reader =>
      if reader.current.kind == .mark .comma then
        .advance fun _ =>
        .part .same .someParameters fun rest =>
        .done (first :: rest)
      else
        .done [first]
  | statement =>
    .look fun reader =>
      match reader.current.kind with
      | .keyword .letWord => .declaration .done
      | .keyword .fnWord => .part .same .definition .done
      | .keyword .ifWord => .part .same .branch .done
      | .keyword .whileWord => .part .same .whileLoop .done
      | .keyword .forWord => .part .same .forLoop .done
      | .keyword .returnWord => .returning
      | .keyword .breakWord => .loopControl .breakWord .break
      | .keyword .continueWord => .loopControl .continueWord .continue
      | .mark .leftBrace => .part .same .block fun found => .done (.block found.2 found.1)
      | _ => .expressionStatement
  | definition =>
    .advance fun word =>
    .identifier fun name =>
    .expect .leftParen .parenAfterFunctionName fun _ =>
    .parameters fun names =>
    .expect .rightParen .parenAfterParameters fun _ =>
    .part .none .block fun body =>
    .done (.function (word.span.merge body.2) name names body.1)
  | block =>
    .expect .leftBrace .openingBrace fun opening =>
    .part .same (.sequence true) fun statements =>
    .expect .rightBrace .braceAfterBlock fun closing =>
    .done (statements, opening.span.merge closing.span)
  | sequence inBraces =>
    .look fun reader =>
      if reader.current.kind = .endOfInput ||
          (inBraces && reader.current.kind = .mark .rightBrace) then
        .done []
      else
        .part .same .statement fun first =>
        .part .same (.sequence inBraces) fun rest =>
        .done (first :: rest)
  | branch =>
    .advance fun word =>
    .condition .ifWord fun test =>
    .part .same .statement fun thenBranch =>
    .look fun reader =>
      if reader.current.kind == .keyword .elseWord then
        .advance fun _ =>
        .part .same .statement fun elseBranch =>
        .done (.branch (word.span.merge elseBranch.span) test thenBranch (some elseBranch))
      else
        .done (.branch (word.span.merge thenBranch.span) test thenBranch none)
  | whileLoop =>
    .advance fun word =>
    .condition .whileWord fun test =>
    .part .oneMore .statement fun body =>
    .done (.loop (word.span.merge body.span) test body none)
  | forLoop =>
    .advance fun word =>
    .expect .leftParen (.parenAfter .forWord) fun _ =>
    .initializer fun first =>
    .loopCondition fun test =>
    .expect .semicolon .semicolonAfterCondition fun _ =>
    .optional .rightParen fun step =>
    .expect .rightParen .parenAfterClauses fun _ =>
    .part .oneMore .statement fun body =>
    .done (.block (word.span.merge body.span)
      (first.toList ++ [.loop (word.span.merge body.span) test body step]))

/-! Every part does what its script says -/

namespace Script

variable {α : Type} {fuel : Nat}

theorem run_look (next : Reader → Script α) (reader : Reader) :
    (Script.look next).run fuel reader = (next reader).run fuel reader := rfl

theorem run_done (value : α) : (Script.done value).run fuel = pure value := rfl

theorem run_advance (next : Token → Script α) :
    (Script.advance next).run fuel = Parse.advance >>= fun token => (next token).run fuel := rfl

theorem run_part (inner : Part) (next : inner.Result → Script α) :
    (Script.part .same inner next).run fuel =
      inner.run fuel >>= fun result => (next result).run fuel := rfl

theorem run_expression (next : Node → Script α) :
    (expression next).run fuel = Parse.expression fuel >>= fun node => (next node).run fuel := rfl

theorem run_expect (symbol : Mark) (expected : Expectation) (next : Token → Script α) :
    (expect symbol expected next).run fuel =
      Parse.expect symbol expected >>= fun token => (next token).run fuel := by
  funext reader
  rw [Parse.expect, bind_assoc, sees_bind, expect, run_look]
  split <;> rfl

theorem run_identifier (next : String → Script α) :
    (identifier next).run fuel = Parse.identifier >>= fun name => (next name).run fuel := by
  funext reader
  rw [Parse.identifier, bind_assoc, current_bind, identifier, run_look]
  cases reader.current.kind with
  | identifier name => simp only [run_advance, bind_assoc, pure_bind]
  | _ => rfl

theorem run_assignment (target value : Node) :
    (assignment target value).run fuel = Parse.assignment target value := by
  cases target <;> rfl

theorem run_declaration (next : Node → Script α) :
    (declaration next).run fuel = Parse.declaration fuel >>= fun node => (next node).run fuel := by
  simp only [declaration, Parse.declaration, run_advance, run_identifier, run_expect,
    run_expression, bind_assoc, pure_bind]

theorem run_parameters (next : List String → Script α) :
    (parameters next).run fuel = Parse.parameters fuel >>= fun names => (next names).run fuel := by
  funext reader
  rw [Parse.parameters, bind_assoc, sees_bind, parameters, run_look]
  split <;> rfl

theorem run_condition (word : Keyword) (next : Node → Script α) :
    (condition word next).run fuel =
      Parse.condition fuel word >>= fun node => (next node).run fuel := by
  simp only [condition, Parse.condition, run_expect, run_expression, bind_assoc, pure_bind]

theorem run_optional (symbol : Mark) (next : Option Node → Script α) :
    (optional symbol next).run fuel =
      (do if ← sees (.mark symbol) then pure none else some <$> Parse.expression fuel) >>=
        fun node => (next node).run fuel := by
  funext reader
  rw [bind_assoc, sees_bind, optional, run_look]
  split
  · rfl
  · rw [run_expression, map_eq_pure_bind, bind_assoc]
    rfl

theorem run_returning : returning.run fuel = Parse.returning fuel := by
  simp only [returning, Parse.returning, Parse.returned, run_advance, run_optional, run_expect]
  rfl

theorem run_loopControl (word : Keyword) (node : Span → Node) :
    (loopControl word node).run fuel = Parse.loopControl word node := by
  funext reader
  rw [Parse.loopControl, inLoop_bind, loopControl, run_look]
  split
  · simp only [run_advance, run_expect]
    rfl
  · rfl

theorem run_expressionStatement :
    expressionStatement.run fuel = Parse.expressionStatement fuel := by
  rw [expressionStatement, run_expression, Parse.expressionStatement]
  refine bind_congr fun node => ?_
  funext reader
  rw [run_look, sees_bind]
  split
  · rfl
  · rw [run_expect]
    rfl

theorem run_initializer (next : Option Node → Script α) :
    (initializer next).run fuel = Parse.initializer fuel >>= fun node => (next node).run fuel := by
  funext reader
  rw [initializer, run_look, Parse.initializer, bind_assoc, current_bind]
  have declared : (declaration fun node => next (some node)).run fuel =
      (some <$> Parse.declaration fuel) >>= fun node => (next node).run fuel := by
    simp only [run_declaration, map_eq_pure_bind, bind_assoc, pure_bind]
  have other : (expression fun node =>
        expect .semicolon .semicolonAfterInitializer fun _ => next (some node)).run fuel =
      (do
        let node ← Parse.expression fuel
        let _ ← Parse.expect .semicolon .semicolonAfterInitializer
        pure (some node)) >>= fun node => (next node).run fuel := by
    simp only [run_expression, run_expect, bind_assoc, pure_bind]
  cases reader.current.kind with
  | mark symbol =>
    cases symbol with
    | semicolon => simp only [run_advance, bind_assoc, pure_bind]
    | _ => exact congrFun other reader
  | keyword word =>
    cases word with
    | letWord => exact congrFun declared reader
    | _ => exact congrFun other reader
  | _ => exact congrFun other reader

theorem run_loopCondition (next : Node → Script α) :
    (loopCondition next).run fuel =
      Parse.loopCondition fuel >>= fun node => (next node).run fuel := by
  funext reader
  rw [loopCondition, run_look, Parse.loopCondition, bind_assoc, current_bind]
  split <;> rfl

end Script

theorem Part.run_zero (part : Part) : part.run 0 = Action.cutOff := by
  cases part <;> rfl

/-! Each part reads as its script says -/

section

variable {fuel : Nat}

theorem expression_eq_script :
    Parse.expression (fuel + 1) = Part.expression.script.run fuel := by
  rw [Parse.expression, Part.script, Script.run_part]
  refine bind_congr fun target => ?_
  funext reader
  rw [sees_bind, Script.run_look]
  split
  · simp only [Script.run_advance, Script.run_expression, Script.run_assignment]
  · rfl

theorem climb_eq_script (least : Nat) (left : Node) :
    Parse.climb (fuel + 1) least left = (Part.climb least left).script.run fuel := by
  funext reader
  rw [Parse.climb, current_bind, Part.script, Script.run_look]
  cases Operator.ofKind? reader.current.kind with
  | none => rfl
  | some found =>
    dsimp only
    split
    · rfl
    · simp only [Script.run_advance, Script.run_part, Script.run_done, bind_pure, Part.run]

theorem unary_eq_script : Parse.unary (fuel + 1) = Part.unary.script.run fuel := by
  funext reader
  rw [Parse.unary, current_bind, Part.script, Script.run_look]
  cases UnaryOp.ofKind? reader.current.kind <;>
    simp only [Script.run_advance, Script.run_part, Script.run_done, bind_pure, Part.run]

theorem calls_eq_script (callee : Node) :
    Parse.calls (fuel + 1) callee = (Part.calls callee).script.run fuel := by
  funext reader
  rw [Parse.calls, sees_bind, Part.script, Script.run_look]
  split
  · simp only [Script.run_advance, Script.run_part, Script.run_expect, Script.run_done, bind_pure,
      Part.run]
  · rfl

theorem arguments_eq_script : Parse.arguments (fuel + 1) = Part.arguments.script.run fuel := by
  funext reader
  rw [Parse.arguments, sees_bind, Part.script, Script.run_look]
  split
  · rfl
  · simp only [Script.run_part, Script.run_done, bind_pure, Part.run]

theorem someArguments_eq_script :
    Parse.someArguments (fuel + 1) = Part.someArguments.script.run fuel := by
  rw [Parse.someArguments, Part.script, Script.run_expression]
  refine bind_congr fun first => ?_
  funext reader
  rw [sees_bind, Script.run_look]
  split
  · simp only [Script.run_advance, Script.run_part, Script.run_done, Part.run]
  · rfl

theorem primary_eq_script : Parse.primary (fuel + 1) = Part.primary.script.run fuel := by
  funext reader
  rw [Parse.primary, current_bind, Part.script, Script.run_look]
  cases atom? reader.current with
  | some node => rfl
  | none =>
    dsimp only
    split
    · simp only [Script.run_advance, Script.run_expression, Script.run_expect, Script.run_done]
    · rfl

theorem someParameters_eq_script :
    Parse.someParameters (fuel + 1) = Part.someParameters.script.run fuel := by
  rw [Parse.someParameters, Part.script, Script.run_identifier]
  refine bind_congr fun first => ?_
  funext reader
  rw [sees_bind, Script.run_look]
  split
  · simp only [Script.run_advance, Script.run_part, Script.run_done, Part.run]
  · rfl

theorem statement_eq_script : Parse.statement (fuel + 1) = Part.statement.script.run fuel := by
  funext reader
  rw [Parse.statement, current_bind, Part.script, Script.run_look]
  cases reader.current.kind with
  | mark symbol =>
    cases symbol with
    | leftBrace => rfl
    | _ => exact congrFun Script.run_expressionStatement.symm reader
  | keyword word =>
    cases word with
    | letWord =>
      dsimp only
      rw [Script.run_declaration]
      exact congrFun (bind_pure _).symm reader
    | fnWord | ifWord | whileWord | forWord => exact congrFun (bind_pure _).symm reader
    | returnWord => exact congrFun Script.run_returning.symm reader
    | breakWord | continueWord => exact congrFun (Script.run_loopControl _ _).symm reader
    | _ => exact congrFun Script.run_expressionStatement.symm reader
  | _ => exact congrFun Script.run_expressionStatement.symm reader

theorem sequence_eq_script (inBraces : Bool) :
    Parse.sequence (fuel + 1) inBraces = (Part.sequence inBraces).script.run fuel := by
  funext reader
  rw [Parse.sequence, current_bind, Part.script, Script.run_look]
  split
  · rfl
  · simp only [Script.run_part, Script.run_done, Part.run]

theorem branch_eq_script : Parse.branch (fuel + 1) = Part.branch.script.run fuel := by
  simp only [Parse.branch, Part.script, Script.run_advance, Script.run_condition, Script.run_part]
  refine bind_congr fun word => bind_congr fun test => bind_congr fun thenBranch => ?_
  funext reader
  rw [sees_bind, Script.run_look]
  split
  · simp only [Script.run_advance, Script.run_part, Script.run_done, Part.run]
  · rfl

end

theorem Part.run_succ (part : Part) (fuel : Nat) : part.run (fuel + 1) = part.script.run fuel := by
  cases part with
  | expression => exact expression_eq_script
  | operation least =>
    simp only [run, Parse.operation, script, Script.run_part, Script.run_done, bind_pure]
  | climb least left => exact climb_eq_script least left
  | unary => exact unary_eq_script
  | call => simp only [run, Parse.call, script, Script.run_part, Script.run_done, bind_pure]
  | calls callee => exact calls_eq_script callee
  | arguments => exact arguments_eq_script
  | someArguments => exact someArguments_eq_script
  | primary => exact primary_eq_script
  | someParameters => exact someParameters_eq_script
  | statement => exact statement_eq_script
  | definition =>
    simp only [run, Parse.definition, script, Script.run_advance, Script.run_identifier,
      Script.run_expect, Script.run_parameters]
    rfl
  | block => simp only [run, Parse.block, script, Script.run_expect, Script.run_part, Script.run_done]
  | sequence inBraces => exact sequence_eq_script inBraces
  | branch => exact branch_eq_script
  | whileLoop =>
    simp only [run, Parse.whileLoop, script, Script.run_advance, Script.run_condition]
    rfl
  | forLoop =>
    simp only [run, Parse.forLoop, script, Script.run_advance, Script.run_expect,
      Script.run_initializer, Script.run_loopCondition, Script.run_optional]
    rfl

end Scriptlet.Parse
