import Scriptlet.Grammar.Expression

/-! Statements, blocks and whole programs. -/

set_option autoImplicit false

namespace Scriptlet.Parse

def declaration (fuel : Nat) : Parse Node := do
  let word ← advance
  let name ← identifier
  let _ ← expect .equal .equalAfterName
  let value ← expression fuel
  let semicolon ← expect .semicolon .semicolonAfterLet
  pure (.declare (word.span.merge semicolon.span) name value)

def someParameters : Nat → Parse (List String)
  | 0 => Action.cutOff
  | fuel + 1 => do
    let first ← identifier
    if ← sees (.mark .comma) then
      let _ ← advance
      let rest ← someParameters fuel
      pure (first :: rest)
    else
      pure [first]

def parameters (fuel : Nat) : Parse (List String) := do
  if ← sees (.mark .rightParen) then
    pure []
  else
    someParameters fuel

def condition (fuel : Nat) (word : Keyword) : Parse Node := do
  let _ ← expect .leftParen (.parenAfter word)
  let node ← expression fuel
  let _ ← expect .rightParen .parenAfterCondition
  pure node

/-- What a function returns; without a value the semicolon follows at once. -/
def returned (fuel : Nat) : Parse (Option Node) := do
  if ← sees (.mark .semicolon) then
    pure none
  else
    some <$> expression fuel

def returning (fuel : Nat) : Parse Node := do
  let word ← advance
  let value ← returned fuel
  let semicolon ← expect .semicolon .semicolonAfterReturn
  pure (.return (word.span.merge semicolon.span) value)

/-- `break` and `continue`; outside of loops they consume nothing. -/
def loopControl (word : Keyword) (node : Span → Node) : Parse Node := do
  if ← inLoop then
    let found ← advance
    let semicolon ← expect .semicolon (.semicolonAfter word)
    pure (node (found.span.merge semicolon.span))
  else
    let found ← current
    Action.fail (.controlOutsideLoop word found.span)

/-- An expression with a semicolon, which only the end of input replaces. -/
def expressionStatement (fuel : Nat) : Parse Node := do
  let node ← expression fuel
  if ← sees .endOfInput then
    pure node
  else
    let _ ← expect .semicolon .semicolonAfterExpression
    pure node

/-- What a `for` loop does first, up to and with the semicolon after it. -/
def initializer (fuel : Nat) : Parse (Option Node) := do
  let next ← current
  match next.kind with
  | .mark .semicolon =>
    let _ ← advance
    pure none
  | .keyword .letWord => some <$> declaration fuel
  | _ =>
    let node ← expression fuel
    let _ ← expect .semicolon .semicolonAfterInitializer
    pure (some node)

/-- The condition of a `for` loop; without one it goes on for ever. -/
def loopCondition (fuel : Nat) : Parse Node := do
  let next ← current
  if next.kind = .mark .semicolon then
    pure (.boolean (Span.point next.span.start) true)
  else
    expression fuel

def increment (fuel : Nat) : Parse (Option Node) := do
  if ← sees (.mark .rightParen) then
    pure none
  else
    some <$> expression fuel

mutual

def statement : Nat → Parse Node
  | 0 => Action.cutOff
  | fuel + 1 => do
    let next ← current
    match next.kind with
    | .keyword .letWord => declaration fuel
    | .keyword .fnWord => definition fuel
    | .keyword .ifWord => branch fuel
    | .keyword .whileWord => whileLoop fuel
    | .keyword .forWord => forLoop fuel
    | .keyword .returnWord => returning fuel
    | .keyword .breakWord => loopControl .breakWord .break
    | .keyword .continueWord => loopControl .continueWord .continue
    | .mark .leftBrace =>
      let (statements, span) ← block fuel
      pure (.block span statements)
    | _ => expressionStatement fuel

def definition : Nat → Parse Node
  | 0 => Action.cutOff
  | fuel + 1 => do
    let word ← advance
    let name ← identifier
    let _ ← expect .leftParen .parenAfterFunctionName
    let names ← parameters fuel
    let _ ← expect .rightParen .parenAfterParameters
    let (body, span) ← outsideLoops (block fuel)
    pure (.function (word.span.merge span) name names body)

def block : Nat → Parse (List Node × Span)
  | 0 => Action.cutOff
  | fuel + 1 => do
    let opening ← expect .leftBrace .openingBrace
    let statements ← sequence fuel true
    let closing ← expect .rightBrace .braceAfterBlock
    pure (statements, opening.span.merge closing.span)

/-- Statements up to the end of input or, within braces, up to a closing one. -/
def sequence : Nat → Bool → Parse (List Node)
  | 0, _ => Action.cutOff
  | fuel + 1, inBraces => do
    let next ← current
    if next.kind = .endOfInput || (inBraces && next.kind = .mark .rightBrace) then
      pure []
    else
      let first ← statement fuel
      let rest ← sequence fuel inBraces
      pure (first :: rest)

def branch : Nat → Parse Node
  | 0 => Action.cutOff
  | fuel + 1 => do
    let word ← advance
    let test ← condition fuel .ifWord
    let thenBranch ← statement fuel
    if ← sees (.keyword .elseWord) then
      let _ ← advance
      let elseBranch ← statement fuel
      pure (.branch (word.span.merge elseBranch.span) test thenBranch (some elseBranch))
    else
      pure (.branch (word.span.merge thenBranch.span) test thenBranch none)

def whileLoop : Nat → Parse Node
  | 0 => Action.cutOff
  | fuel + 1 => do
    let word ← advance
    let test ← condition fuel .whileWord
    let body ← insideLoop (statement fuel)
    pure (.loop (word.span.merge body.span) test body none)

/-- A `for` loop is a block of what it does first and a loop with an increment. -/
def forLoop : Nat → Parse Node
  | 0 => Action.cutOff
  | fuel + 1 => do
    let word ← advance
    let _ ← expect .leftParen (.parenAfter .forWord)
    let first ← initializer fuel
    let test ← loopCondition fuel
    let _ ← expect .semicolon .semicolonAfterCondition
    let step ← increment fuel
    let _ ← expect .rightParen .parenAfterClauses
    let body ← insideLoop (statement fuel)
    let span := word.span.merge body.span
    pure (.block span (first.toList ++ [.loop span test body step]))

end

def wholeProgram (fuel : Nat) : Parse Node := do
  let statements ← sequence fuel false
  let last ← current
  pure (.program ⟨0, last.span.stop⟩ statements)

end Scriptlet.Parse
