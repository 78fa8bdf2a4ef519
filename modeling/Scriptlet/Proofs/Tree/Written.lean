import Scriptlet.Grammar.Operator
import Scriptlet.Proofs.Tree.WellFormed

/-! How trees are written, token by token, with as few parentheses as can be. -/

set_option autoImplicit false

namespace Scriptlet

def UnaryOp.mark : UnaryOp → Mark
  | negate => .minus
  | not => .bang

def BinaryOp.mark : BinaryOp → Mark
  | add => .plus
  | subtract => .minus
  | multiply => .star
  | divide => .slash
  | modulo => .percent
  | equal => .equalEqual
  | notEqual => .bangEqual
  | less => .less
  | lessEqual => .lessEqual
  | greater => .greater
  | greaterEqual => .greaterEqual

def LogicalOp.mark : LogicalOp → Mark
  | and => .andAnd
  | or => .orOr

def BinaryOp.tightness : BinaryOp → Nat
  | equal | notEqual => 3
  | less | lessEqual | greater | greaterEqual => 4
  | add | subtract => 5
  | multiply | divide | modulo => 6

def LogicalOp.tightness : LogicalOp → Nat
  | or => 1
  | and => 2

namespace Node

/-- How tightly an expression holds together: assignments least, what stands alone most. -/
def tightness : Node → Nat
  | .assign .. => 0
  | .logical _ op _ _ => op.tightness
  | .binary _ op _ _ => op.tightness
  | .unary .. => 7
  | .call .. => 8
  | _ => 9

/-- A place that asks for more than an expression's own tightness puts it in parentheses. -/
def enclosed (least : Nat) (node : Node) (kinds : List Kind) : List Kind :=
  if node.tightness < least then
    .mark .leftParen :: (kinds ++ [.mark .rightParen])
  else
    kinds

mutual

def expressionKinds : Node → List Kind
  | .number _ value => [.number value]
  | .string _ text => [.string text]
  | .boolean _ value => [.keyword (if value then .trueWord else .falseWord)]
  | .nil _ => [.keyword .nilWord]
  | .reference _ name => [.identifier name]
  | .assign _ name value => .identifier name :: .mark .equal :: expressionKinds value
  | .unary _ op operand => .mark op.mark :: enclosed 7 operand (expressionKinds operand)
  | .binary _ op left right =>
    enclosed op.tightness left (expressionKinds left) ++
      .mark op.mark :: enclosed (op.tightness + 1) right (expressionKinds right)
  | .logical _ op left right =>
    enclosed op.tightness left (expressionKinds left) ++
      .mark op.mark :: enclosed (op.tightness + 1) right (expressionKinds right)
  | .call _ callee arguments =>
    enclosed 8 callee (expressionKinds callee) ++
      .mark .leftParen :: (argumentKinds arguments ++ [.mark .rightParen])
  | _ => []

def argumentKinds : List Node → List Kind
  | [] => []
  | [node] => expressionKinds node
  | node :: next :: rest => expressionKinds node ++ .mark .comma :: argumentKinds (next :: rest)

end

def parameterKinds : List String → List Kind
  | [] => []
  | [name] => [.identifier name]
  | name :: next :: rest => .identifier name :: .mark .comma :: parameterKinds (next :: rest)

def valueKinds : Option Node → List Kind
  | none => []
  | some node => expressionKinds node

/-- Whether statements are those of a `for` loop. -/
def areCounted (statements : List Node) : Bool := statements.getLast?.any hasIncrement

mutual

/-- A statement; of a loop with an increment, what comes after its first semicolon. -/
def statementKinds : Node → List Kind
  | .declare _ name value =>
    .keyword .letWord :: .identifier name :: .mark .equal ::
      (expressionKinds value ++ [.mark .semicolon])
  | .function _ name parameters body =>
    .keyword .fnWord :: .identifier name :: .mark .leftParen ::
      (parameterKinds parameters ++ .mark .rightParen :: .mark .leftBrace ::
        (sequenceKinds body ++ [.mark .rightBrace]))
  | .block _ statements =>
    if areCounted statements then
      .keyword .forWord :: .mark .leftParen ::
        ((if statements.length = 1 then [.mark .semicolon] else []) ++ sequenceKinds statements)
    else
      .mark .leftBrace :: (sequenceKinds statements ++ [.mark .rightBrace])
  | .branch _ condition thenBranch elseBranch =>
    .keyword .ifWord :: .mark .leftParen ::
      (expressionKinds condition ++ .mark .rightParen ::
        (statementKinds thenBranch ++ elseKinds elseBranch))
  | .loop _ condition body none =>
    .keyword .whileWord :: .mark .leftParen ::
      (expressionKinds condition ++ .mark .rightParen :: statementKinds body)
  | .loop _ condition body (some increment) =>
    expressionKinds condition ++ .mark .semicolon ::
      (expressionKinds increment ++ .mark .rightParen :: statementKinds body)
  | .return _ value => .keyword .returnWord :: (valueKinds value ++ [.mark .semicolon])
  | .break _ => [.keyword .breakWord, .mark .semicolon]
  | .continue _ => [.keyword .continueWord, .mark .semicolon]
  | .program _ statements => sequenceKinds statements
  | node => expressionKinds node ++ [.mark .semicolon]

def sequenceKinds : List Node → List Kind
  | [] => []
  | node :: rest => statementKinds node ++ sequenceKinds rest

def elseKinds : Option Node → List Kind
  | none => []
  | some node => .keyword .elseWord :: statementKinds node

end

end Node

namespace Operator

theorem ofKind?_binary (op : BinaryOp) :
    ofKind? (.mark op.mark) = some (op.tightness, .binary op) := by
  cases op <;> rfl

theorem ofKind?_logical (op : LogicalOp) :
    ofKind? (.mark op.mark) = some (op.tightness, .logical op) := by
  cases op <;> rfl

end Operator

theorem UnaryOp.ofKind?_mark (op : UnaryOp) : ofKind? (.mark op.mark) = some op := by
  cases op <;> rfl

namespace Kind

def beginsExpression : Kind → Bool
  | .number _ => true
  | .string _ => true
  | .identifier _ => true
  | .keyword word => word = .trueWord || word = .falseWord || word = .nilWord
  | .mark symbol => symbol = .leftParen || symbol = .bang || symbol = .minus
  | .endOfInput => false

def beginsStatement : Kind → Bool
  | .keyword .letWord => true
  | .keyword .fnWord => true
  | .keyword .ifWord => true
  | .keyword .whileWord => true
  | .keyword .forWord => true
  | .keyword .returnWord => true
  | .keyword .breakWord => true
  | .keyword .continueWord => true
  | .mark .leftBrace => true
  | kind => kind.beginsExpression

theorem beginsStatement_of_beginsExpression {kind : Kind} (begins : kind.beginsExpression = true) :
    kind.beginsStatement = true := by
  unfold beginsStatement
  split <;> first | rfl | exact begins

theorem ends_eq_false_of_beginsStatement {kind : Kind} (begins : kind.beginsStatement = true)
    (inBraces : Bool) :
    (decide (kind = .endOfInput) || (inBraces && decide (kind = .mark .rightBrace))) = false := by
  cases kind with
  | endOfInput => cases begins
  | mark symbol =>
    cases symbol with
    | rightBrace => cases begins
    | _ => cases inBraces <;> rfl
  | _ => simp

end Kind

namespace WellFormed

theorem Expression.statementKinds {node : Node} (sound : Expression node) :
    node.statementKinds = node.expressionKinds ++ [.mark .semicolon] := by
  cases sound <;> rfl

theorem areCounted_eq_false {inLoop : Bool} {statements : List Node}
    (sound : ∀ node ∈ statements, Statement inLoop node) :
    Node.areCounted statements = false := by
  unfold Node.areCounted
  cases last : statements.getLast? with
  | none => rfl
  | some node => exact (sound node (List.mem_of_getLast? last)).hasIncrement

theorem areCounted_forLoop (first : Option Node) (span : Span) (condition body increment : Node) :
    Node.areCounted (first.toList ++ [.loop span condition body (some increment)]) = true := by
  simp [Node.areCounted, Node.hasIncrement]

theorem statementKinds_block {inLoop : Bool} {span : Span} {statements : List Node}
    (sound : ∀ node ∈ statements, Statement inLoop node) :
    (Node.block span statements).statementKinds =
      .mark .leftBrace :: (Node.sequenceKinds statements ++ [.mark .rightBrace]) := by
  rw [Node.statementKinds, areCounted_eq_false sound, if_neg Bool.false_ne_true]

theorem statementKinds_forLoop (span loopSpan : Span) (first : Option Node)
    (condition body increment : Node) :
    (Node.block span
        (first.toList ++ [.loop loopSpan condition body (some increment)])).statementKinds =
      .keyword .forWord :: .mark .leftParen ::
        ((first.elim [.mark .semicolon] Node.statementKinds) ++
          (condition.expressionKinds ++ .mark .semicolon ::
            (increment.expressionKinds ++ .mark .rightParen :: body.statementKinds))) := by
  rw [Node.statementKinds, areCounted_forLoop, if_pos rfl]
  cases first <;> simp [Node.sequenceKinds, Node.statementKinds]

/-! What texts begin with -/

theorem exists_cons_enclosed {least : Nat} {node : Node} {kinds : List Kind}
    (begins : ∃ kind rest, kinds = kind :: rest ∧ kind.beginsExpression = true) :
    ∃ kind rest, node.enclosed least kinds = kind :: rest ∧ kind.beginsExpression = true := by
  unfold Node.enclosed
  split
  · exact ⟨.mark .leftParen, _, rfl, rfl⟩
  · exact begins

theorem Expression.exists_cons {node : Node} (sound : Expression node) :
    ∃ kind rest, node.expressionKinds = kind :: rest ∧ kind.beginsExpression = true := by
  induction sound with
  | number => exact ⟨_, _, rfl, rfl⟩
  | string => exact ⟨_, _, rfl, rfl⟩
  | boolean => rename_i value; cases value <;> exact ⟨_, _, rfl, rfl⟩
  | nil => exact ⟨_, _, rfl, rfl⟩
  | reference => exact ⟨_, _, rfl, rfl⟩
  | assign => exact ⟨_, _, rfl, rfl⟩
  | unary => rename_i op _ _ _; cases op <;> exact ⟨_, _, rfl, rfl⟩
  | binary _ _ ih =>
    obtain ⟨kind, rest, same, begins⟩ := exists_cons_enclosed ih
    exact ⟨kind, _, by rw [Node.expressionKinds, same, List.cons_append], begins⟩
  | logical _ _ ih =>
    obtain ⟨kind, rest, same, begins⟩ := exists_cons_enclosed ih
    exact ⟨kind, _, by rw [Node.expressionKinds, same, List.cons_append], begins⟩
  | call _ _ ih =>
    obtain ⟨kind, rest, same, begins⟩ := exists_cons_enclosed ih
    exact ⟨kind, _, by rw [Node.expressionKinds, same, List.cons_append], begins⟩

theorem Statement.exists_cons {inLoop : Bool} {node : Node} (sound : Statement inLoop node) :
    ∃ kind rest, node.statementKinds = kind :: rest ∧ kind.beginsStatement = true := by
  cases sound with
  | expression sound =>
    obtain ⟨kind, rest, same, begins⟩ := sound.exists_cons
    refine ⟨kind, rest ++ [.mark .semicolon], ?_, Kind.beginsStatement_of_beginsExpression begins⟩
    rw [sound.statementKinds, same, List.cons_append]
  | block statements => exact ⟨_, _, statementKinds_block statements, rfl⟩
  | forLoop => exact ⟨_, _, statementKinds_forLoop .., rfl⟩
  | _ => exact ⟨_, _, rfl, rfl⟩

end WellFormed

end Scriptlet
