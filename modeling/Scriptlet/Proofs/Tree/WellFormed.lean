import Scriptlet.Proofs.Tree.Spans
import Scriptlet.Token.Lexeme

/-! The trees that programs are.

A tree is well-formed if expressions stand where values are needed, names and numbers can be
written, `break` and `continue` stand in loops, a loop with an increment stands where `for` puts it,
and no `else` could belong to another `if` than its own.
-/

set_option autoImplicit false

namespace Scriptlet

/-- A word that is not reserved. -/
def IsName (name : String) : Prop :=
  ∃ first rest, name.toList = first :: rest ∧ isLetter first = true ∧
    (∀ c ∈ rest, isWordPart c = true) ∧ Keyword.ofSpelling? name = none

def IsLiteral (value : Float) : Prop :=
  ∃ first whole fraction, isDigit first = true ∧ (∀ c ∈ whole, isDigit c = true) ∧
    (∀ c ∈ fraction, isDigit c = true) ∧ value = Number.ofDigits (first :: whole) fraction

namespace Node

/-- Only what `for` puts into a block is a loop with an increment. -/
def hasIncrement : Node → Bool
  | .loop _ _ _ (some _) => true
  | _ => false

mutual

/-- Whether an `else` after the text of a statement would belong to an `if` within it. -/
def endsOpen : Node → Bool
  | .branch _ _ _ elseBranch => elseEndsOpen elseBranch
  | .loop _ _ body _ => endsOpen body
  | .block _ statements => loopEndsOpen statements
  | _ => false

def elseEndsOpen : Option Node → Bool
  | none => true
  | some node => endsOpen node

/-- The same of a block: only one that ends in a loop with an increment is written without
braces. -/
def loopEndsOpen : List Node → Bool
  | [] => false
  | [last] => last.hasIncrement && endsOpen last
  | _ :: next :: rest => loopEndsOpen (next :: rest)

end

theorem hasIncrement_mapSpans (change : Span → Span) (node : Node) :
    (node.mapSpans change).hasIncrement = node.hasIncrement := by
  cases node with
  | loop _ _ _ increment => cases increment <;> rfl
  | _ => rfl

mutual

theorem endsOpen_mapSpans (change : Span → Span) :
    ∀ node : Node, (node.mapSpans change).endsOpen = node.endsOpen
  | .branch _ _ _ elseBranch => by
    simp only [mapSpans, endsOpen, elseEndsOpen_mapSpans change elseBranch]
  | .loop _ _ body _ => by simp only [mapSpans, endsOpen, endsOpen_mapSpans change body]
  | .block _ statements => by
    simp only [mapSpans, endsOpen, loopEndsOpen_mapSpans change statements]
  | .number .. | .string .. | .boolean .. | .nil .. | .reference .. | .assign .. | .declare ..
  | .unary .. | .binary .. | .logical .. | .call .. | .function .. | .return .. | .break ..
  | .continue .. | .program .. => by simp only [mapSpans, endsOpen]

theorem elseEndsOpen_mapSpans (change : Span → Span) :
    ∀ node : Option Node, elseEndsOpen (mapSpansIfAny change node) = elseEndsOpen node
  | none => rfl
  | some node => by simp only [mapSpansIfAny, elseEndsOpen, endsOpen_mapSpans change node]

theorem loopEndsOpen_mapSpans (change : Span → Span) :
    ∀ nodes : List Node, loopEndsOpen (mapSpansEach change nodes) = loopEndsOpen nodes
  | [] => rfl
  | [last] => by
    simp only [mapSpansEach, loopEndsOpen, endsOpen_mapSpans change last,
      hasIncrement_mapSpans]
  | _ :: next :: rest => by
    simpa only [mapSpansEach, loopEndsOpen] using loopEndsOpen_mapSpans change (next :: rest)

end

theorem endsOpen_forLoop (span loopSpan : Span) (first : Option Node)
    (condition body increment : Node) :
    (Node.block span (first.toList ++ [.loop loopSpan condition body (some increment)])).endsOpen =
      body.endsOpen := by
  cases first <;> rfl

/-- The statements of a `for` loop are told from their tree alone. -/
theorem eq_of_bare_forLoop {first : Option Node} {loopSpan : Span}
    {condition body increment : Node} {statements : List Node}
    (same : mapSpansEach (fun _ => Span.point 0) statements =
      mapSpansEach (fun _ => Span.point 0)
        (first.toList ++ [.loop loopSpan condition body (some increment)])) :
    ∃ otherFirst otherSpan otherCondition otherBody otherIncrement,
      statements =
        otherFirst.toList ++ [.loop otherSpan otherCondition otherBody (some otherIncrement)] ∧
      mapSpansIfAny (fun _ => Span.point 0) otherFirst =
        mapSpansIfAny (fun _ => Span.point 0) first ∧
      otherCondition.bare = condition.bare ∧ otherBody.bare = body.bare ∧
      otherIncrement.bare = increment.bare := by
  -- the loop with an increment is told from the last statement
  have last : ∀ node : Node,
      node.bare = (Node.loop loopSpan condition body (some increment)).bare →
      ∃ otherSpan otherCondition otherBody otherIncrement,
        node = .loop otherSpan otherCondition otherBody (some otherIncrement) ∧
        otherCondition.bare = condition.bare ∧ otherBody.bare = body.bare ∧
        otherIncrement.bare = increment.bare := by
    intro node equal
    cases node <;> simp only [bare, mapSpans, reduceCtorEq] at equal
    rename_i span otherCondition otherBody found
    injection equal with _ sameCondition sameBody sameIncrement
    cases found with
    | none => cases sameIncrement
    | some found =>
      injection sameIncrement with sameIncrement
      exact ⟨span, otherCondition, otherBody, found, rfl, sameCondition, sameBody, sameIncrement⟩
  -- one statement or two, as many as there are in the other tree
  cases first with
  | none =>
    rcases statements with _ | ⟨node, _ | ⟨next, rest⟩⟩
    · cases same
    · injection same with equal _
      obtain ⟨span, otherCondition, otherBody, found, rfl, parts⟩ := last node equal
      exact ⟨none, span, otherCondition, otherBody, found, rfl, rfl, parts⟩
    · injection same with _ more
      cases more
  | some first =>
    rcases statements with _ | ⟨node, _ | ⟨next, _ | ⟨third, rest⟩⟩⟩
    · cases same
    · injection same with _ more
      cases more
    · injection same with sameFirst more
      injection more with equal _
      obtain ⟨span, otherCondition, otherBody, found, rfl, parts⟩ := last next equal
      exact ⟨some node, span, otherCondition, otherBody, found, rfl, congrArg some sameFirst, parts⟩
    · injection same with _ more
      injection more with _ more
      cases more

end Node

namespace WellFormed

inductive Expression : Node → Prop where
  | number {span : Span} {value : Float} : IsLiteral value → Expression (.number span value)
  | string {span : Span} {text : String} : Expression (.string span text)
  | boolean {span : Span} {value : Bool} : Expression (.boolean span value)
  | nil {span : Span} : Expression (.nil span)
  | reference {span : Span} {name : String} : IsName name → Expression (.reference span name)
  | assign {span : Span} {name : String} {value : Node} :
    IsName name → Expression value → Expression (.assign span name value)
  | unary {span : Span} {op : UnaryOp} {operand : Node} :
    Expression operand → Expression (.unary span op operand)
  | binary {span : Span} {op : BinaryOp} {left right : Node} :
    Expression left → Expression right → Expression (.binary span op left right)
  | logical {span : Span} {op : LogicalOp} {left right : Node} :
    Expression left → Expression right → Expression (.logical span op left right)
  | call {span : Span} {callee : Node} {arguments : List Node} :
    Expression callee → (∀ node ∈ arguments, Expression node) →
      Expression (.call span callee arguments)

inductive Initializer : Node → Prop where
  | expression {node : Node} : Expression node → Initializer node
  | declare {span : Span} {name : String} {value : Node} :
    IsName name → Expression value → Initializer (.declare span name value)

/-- Statements within a loop of their function, or outside of all of them. -/
inductive Statement : Bool → Node → Prop where
  | expression {inLoop : Bool} {node : Node} : Expression node → Statement inLoop node
  | declare {inLoop : Bool} {span : Span} {name : String} {value : Node} :
    IsName name → Expression value → Statement inLoop (.declare span name value)
  | function {inLoop : Bool} {span : Span} {name : String} {parameters : List String}
    {body : List Node} :
    IsName name → (∀ parameter ∈ parameters, IsName parameter) →
      (∀ node ∈ body, Statement false node) →
        Statement inLoop (.function span name parameters body)
  | block {inLoop : Bool} {span : Span} {statements : List Node} :
    (∀ node ∈ statements, Statement inLoop node) → Statement inLoop (.block span statements)
  | ifThen {inLoop : Bool} {span : Span} {condition thenBranch : Node} :
    Expression condition → Statement inLoop thenBranch →
      Statement inLoop (.branch span condition thenBranch none)
  | ifElse {inLoop : Bool} {span : Span} {condition thenBranch elseBranch : Node} :
    Expression condition → Statement inLoop thenBranch → thenBranch.endsOpen = false →
      Statement inLoop elseBranch →
        Statement inLoop (.branch span condition thenBranch (some elseBranch))
  | whileLoop {inLoop : Bool} {span : Span} {condition body : Node} :
    Expression condition → Statement true body →
      Statement inLoop (.loop span condition body none)
  | forLoop {inLoop : Bool} {span loopSpan : Span} {first : Option Node}
    {condition body increment : Node} :
    (∀ node ∈ first, Initializer node) → Expression condition → Statement true body →
      Expression increment →
        Statement inLoop
          (.block span (first.toList ++ [.loop loopSpan condition body (some increment)]))
  | returning {inLoop : Bool} {span : Span} {value : Option Node} :
    (∀ node ∈ value, Expression node) → Statement inLoop (.return span value)
  | breaking {span : Span} : Statement true (.break span)
  | continuing {span : Span} : Statement true (.continue span)

inductive Program : Node → Prop where
  | program {span : Span} {statements : List Node} :
    (∀ node ∈ statements, Statement false node) → Program (.program span statements)

theorem Initializer.statement {node : Node} (sound : Initializer node) (inLoop : Bool) :
    Statement inLoop node := by
  cases sound with
  | expression sound => exact .expression sound
  | declare name value => exact .declare name value

theorem Statement.hasIncrement {inLoop : Bool} {node : Node} (sound : Statement inLoop node) :
    node.hasIncrement = false := by
  cases sound with
  | expression sound => cases sound <;> rfl
  | _ => rfl

theorem loopEndsOpen_eq_false {inLoop : Bool} {statements : List Node}
    (sound : ∀ node ∈ statements, Statement inLoop node) :
    Node.loopEndsOpen statements = false := by
  induction statements with
  | nil => rfl
  | cons node rest ih =>
    cases rest with
    | nil =>
      have last := (sound node List.mem_cons_self).hasIncrement
      simp only [Node.loopEndsOpen, last, Bool.false_and]
    | cons next rest =>
      exact ih fun other member => sound other (List.mem_cons_of_mem _ member)

/-! Trees that differ in their spans only -/

theorem Expression.of_bare_eq {node other : Node} (sound : Expression node)
    (same : other.bare = node.bare) : Expression other := by
  induction sound generalizing other with
  | number literal =>
    cases other <;> simp only [Node.bare, Node.mapSpans, reduceCtorEq] at same
    cases same
    exact .number literal
  | string => cases other <;> first | exact .string | cases same
  | boolean => cases other <;> first | exact .boolean | cases same
  | nil => cases other <;> first | exact .nil | cases same
  | reference name =>
    cases other <;> simp only [Node.bare, Node.mapSpans, reduceCtorEq] at same
    cases same
    exact .reference name
  | assign name value ih =>
    cases other <;> simp only [Node.bare, Node.mapSpans, reduceCtorEq] at same
    injection same with _ sameName sameValue
    subst sameName
    exact .assign name (ih sameValue)
  | unary operand ih =>
    cases other <;> simp only [Node.bare, Node.mapSpans, reduceCtorEq] at same
    injection same with _ _ sameOperand
    exact .unary (ih sameOperand)
  | binary left right ihLeft ihRight =>
    cases other <;> simp only [Node.bare, Node.mapSpans, reduceCtorEq] at same
    injection same with _ _ sameLeft sameRight
    exact .binary (ihLeft sameLeft) (ihRight sameRight)
  | logical left right ihLeft ihRight =>
    cases other <;> simp only [Node.bare, Node.mapSpans, reduceCtorEq] at same
    injection same with _ _ sameLeft sameRight
    exact .logical (ihLeft sameLeft) (ihRight sameRight)
  | call callee arguments ihCallee ihArguments =>
    cases other <;> simp only [Node.bare, Node.mapSpans, reduceCtorEq] at same
    injection same with _ sameCallee sameArguments
    refine .call (ihCallee sameCallee) fun other member => ?_
    obtain ⟨node, found, equal⟩ := Node.exists_mem_of_mapSpansEach_eq sameArguments member
    exact ihArguments node found equal

theorem Initializer.of_bare_eq {node other : Node} (sound : Initializer node)
    (same : other.bare = node.bare) : Initializer other := by
  cases sound with
  | expression sound => exact .expression (sound.of_bare_eq same)
  | declare name value =>
    cases other <;> simp only [Node.bare, Node.mapSpans, reduceCtorEq] at same
    injection same with _ sameName sameValue
    subst sameName
    exact .declare name (value.of_bare_eq sameValue)

theorem forall_mem_of_bare_eq {P : Node → Prop}
    (respects : ∀ node other : Node, P node → other.bare = node.bare → P other)
    {node other : Option Node} (sound : ∀ found ∈ node, P found)
    (same : Node.mapSpansIfAny (fun _ => Span.point 0) other =
      Node.mapSpansIfAny (fun _ => Span.point 0) node) : ∀ found ∈ other, P found := by
  intro found member
  cases other with
  | none => cases member
  | some other =>
    cases node with
    | none => cases same
    | some node =>
      cases member
      injection same with equal
      exact respects node found (sound node rfl) equal

theorem Statement.of_bare_eq {inLoop : Bool} {node other : Node} (sound : Statement inLoop node)
    (same : other.bare = node.bare) : Statement inLoop other := by
  induction sound generalizing other with
  | expression sound => exact .expression (sound.of_bare_eq same)
  | declare name value =>
    exact ((Initializer.declare name value).of_bare_eq same).statement _
  | function name parameters body ih =>
    cases other <;> simp only [Node.bare, Node.mapSpans, reduceCtorEq] at same
    injection same with _ sameName sameParameters sameBody
    subst sameName sameParameters
    refine .function name parameters fun other member => ?_
    obtain ⟨node, found, equal⟩ := Node.exists_mem_of_mapSpansEach_eq sameBody member
    exact ih node found equal
  | block statements ih =>
    cases other <;> simp only [Node.bare, Node.mapSpans, reduceCtorEq] at same
    injection same with _ sameStatements
    refine .block fun other member => ?_
    obtain ⟨node, found, equal⟩ := Node.exists_mem_of_mapSpansEach_eq sameStatements member
    exact ih node found equal
  | ifThen condition thenBranch ih =>
    cases other <;> simp only [Node.bare, Node.mapSpans, reduceCtorEq] at same
    rename_i elseBranch
    injection same with _ sameCondition sameThen sameElse
    cases elseBranch with
    | none => exact .ifThen (condition.of_bare_eq sameCondition) (ih sameThen)
    | some elseBranch => cases sameElse
  | ifElse condition thenBranch closed elseBranch ihThen ihElse =>
    cases other <;> simp only [Node.bare, Node.mapSpans, reduceCtorEq] at same
    rename_i found
    injection same with _ sameCondition sameThen sameElse
    cases found with
    | none => cases sameElse
    | some found =>
      injection sameElse with sameElse
      refine .ifElse (condition.of_bare_eq sameCondition) (ihThen sameThen) ?_ (ihElse sameElse)
      -- whether a branch ends open does not depend on spans
      rw [← Node.endsOpen_mapSpans fun _ => Span.point 0, sameThen, Node.endsOpen_mapSpans]
      exact closed
  | whileLoop condition body ih =>
    cases other <;> simp only [Node.bare, Node.mapSpans, reduceCtorEq] at same
    rename_i increment
    injection same with _ sameCondition sameBody sameIncrement
    cases increment with
    | none => exact .whileLoop (condition.of_bare_eq sameCondition) (ih sameBody)
    | some increment => cases sameIncrement
  | forLoop first condition body increment ih =>
    cases other <;> simp only [Node.bare, Node.mapSpans, reduceCtorEq] at same
    injection same with _ sameStatements
    obtain ⟨found, loopSpan, otherCondition, otherBody, otherIncrement, rfl, sameFirst,
      sameCondition, sameBody, sameIncrement⟩ := Node.eq_of_bare_forLoop sameStatements
    exact .forLoop
      (forall_mem_of_bare_eq (fun _ _ sound equal => Initializer.of_bare_eq sound equal) first
        sameFirst)
      (condition.of_bare_eq sameCondition) (ih sameBody) (increment.of_bare_eq sameIncrement)
  | returning value =>
    cases other <;> simp only [Node.bare, Node.mapSpans, reduceCtorEq] at same
    injection same with _ sameValue
    exact .returning (forall_mem_of_bare_eq
      (fun _ _ sound equal => Expression.of_bare_eq sound equal) value sameValue)
  | breaking => cases other <;> first | exact .breaking | cases same
  | continuing => cases other <;> first | exact .continuing | cases same

theorem Program.of_bare_eq {node other : Node} (sound : Program node)
    (same : other.bare = node.bare) : Program other := by
  cases sound with
  | program statements =>
    cases other <;> simp only [Node.bare, Node.mapSpans, reduceCtorEq] at same
    injection same with _ sameStatements
    refine .program fun other member => ?_
    obtain ⟨node, found, equal⟩ := Node.exists_mem_of_mapSpansEach_eq sameStatements member
    exact (statements node found).of_bare_eq equal

end WellFormed

end Scriptlet
