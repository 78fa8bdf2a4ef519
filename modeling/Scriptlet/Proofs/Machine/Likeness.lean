import Mathlib.Data.List.Forall2
import Mathlib.Order.Defs.PartialOrder
import Scriptlet.Proofs.Machine.Plain
import Scriptlet.Proofs.Machine.Plan

/-! Evaluations side by side.

A plan does nothing with scopes and with functions of a program but hand them on. If those that two
tasks begin with are alike, then so is all that the plans of both ask for, as long as what comes back
to them is alike too.
-/

set_option autoImplicit false

namespace Scriptlet

/-- Scopes and functions that are alike in two evaluations. Worlds come later as the evaluations go
on: what is alike stays so, and what is made on both sides at a time can become alike. -/
structure Likeness where
  World : Type
  [order : Preorder World]
  scopes : World → ScopeId → ScopeId → Prop
  closures : World → Closure → Closure → Prop
  scopes_mono : ∀ {world later : World} {a b : ScopeId},
    world ≤ later → scopes world a b → scopes later a b
  closures_mono : ∀ {world later : World} {a b : Closure},
    world ≤ later → closures world a b → closures later a b
  code : ∀ {world : World} {a b : Closure}, closures world a b →
    a.name = b.name ∧ a.parameters = b.parameters ∧ a.body = b.body
  captured : ∀ {world : World} {a b : Closure}, closures world a b → scopes world a.scope b.scope
  identity : ∀ {world : World} {a b c d : Closure}, closures world a b → closures world c d →
    (a.identity = c.identity ↔ b.identity = d.identity)

attribute [instance] Likeness.order

namespace Likeness

variable {L : Likeness} {world later : L.World}

/-! What is alike -/

/-- Functions of a program that are alike, and other values that are equal. -/
inductive Values (L : Likeness) (world : L.World) : Value → Value → Prop where
  | plain {value : Value} : value.IsPlain → L.Values world value value
  | closure {a b : Closure} : L.closures world a b → L.Values world (.closure a) (.closure b)

namespace Values

variable {a b : Value}

theorem mono (alike : L.Values world a b) (before : world ≤ later) : L.Values later a b := by
  cases alike with
  | plain plain => exact .plain plain
  | closure alike => exact .closure (L.closures_mono before alike)

theorem type_eq (alike : L.Values world a b) : a.type = b.type := by
  cases alike <;> rfl

theorem isTruthy_eq (alike : L.Values world a b) : a.isTruthy = b.isTruthy := by
  cases alike <;> rfl

theorem isCallable_eq (alike : L.Values world a b) : a.isCallable = b.isCallable := by
  cases alike <;> rfl

theorem decidedBy_eq (alike : L.Values world a b) (op : LogicalOp) :
    op.decidedBy a = op.decidedBy b := by
  cases op <;> simp [LogicalOp.decidedBy, alike.isTruthy_eq]

end Values

abbrev ValueLists (L : Likeness) (world : L.World) : List Value → List Value → Prop :=
  List.Forall₂ (L.Values world)

inductive Signals (L : Likeness) (world : L.World) : Signal → Signal → Prop where
  | normal : L.Signals world .normal .normal
  | broken : L.Signals world .broken .broken
  | continued : L.Signals world .continued .continued
  | returned {a b : Value} : L.Values world a b → L.Signals world (.returned a) (.returned b)

structure Completions (L : Likeness) (world : L.World) (a b : Completion) : Prop where
  value : L.Values world a.value b.value
  signal : L.Signals world a.signal b.signal

inductive Effects (L : Likeness) (world : L.World) : Effect → Effect → Prop where
  | lookUp {a b : ScopeId} {name : String} {span : Span} :
    L.scopes world a b → L.Effects world (.lookUp a name span) (.lookUp b name span)
  | assign {a b : ScopeId} {name : String} {x y : Value} {span : Span} :
    L.scopes world a b → L.Values world x y →
      L.Effects world (.assign a name x span) (.assign b name y span)
  | define {a b : ScopeId} {name : String} {x y : Value} :
    L.scopes world a b → L.Values world x y → L.Effects world (.define a name x) (.define b name y)
  | openScope {a b : ScopeId} :
    L.scopes world a b → L.Effects world (.openScope a) (.openScope b)
  | makeClosure {a b : ScopeId} {name : String} {parameters : List String} {body : List Node} :
    L.scopes world a b →
      L.Effects world (.makeClosure name parameters body a) (.makeClosure name parameters body b)
  | applyUnary {op : UnaryOp} {x y : Value} {span : Span} :
    L.Values world x y → L.Effects world (.applyUnary op x span) (.applyUnary op y span)
  | applyBinary {op : BinaryOp} {x y x' y' : Value} {span : Span} :
    L.Values world x y → L.Values world x' y' →
      L.Effects world (.applyBinary op x x' span) (.applyBinary op y y' span)
  | refuse {x y : Value} {span : Span} :
    L.Values world x y → L.Effects world (.refuse x span) (.refuse y span)
  | checkArity {name : String} {expected : Arity} {found : Nat} {span : Span} :
    L.Effects world (.checkArity name expected found span) (.checkArity name expected found span)
  | checkDepth {span : Span} : L.Effects world (.checkDepth span) (.checkDepth span)
  | callNative {native : Native} {xs ys : List Value} {span : Span} :
    L.ValueLists world xs ys →
      L.Effects world (.callNative native xs span) (.callNative native ys span)

def EffectResults (L : Likeness) (world : L.World) :
    (first second : Effect) → first.Result → second.Result → Prop
  | .lookUp .., .lookUp .., x, y => L.Values world x y
  | .assign .., .assign .., _, _ => True
  | .define .., .define .., _, _ => True
  | .openScope .., .openScope .., a, b => L.scopes world a b
  | .makeClosure .., .makeClosure .., a, b => L.closures world a b
  | .applyUnary .., .applyUnary .., x, y => L.Values world x y
  | .applyBinary .., .applyBinary .., x, y => L.Values world x y
  | .checkArity .., .checkArity .., _, _ => True
  | .checkDepth .., .checkDepth .., _, _ => True
  | .callNative .., .callNative .., x, y => L.Values world x y
  | _, _, _, _ => False

inductive Tasks (L : Likeness) (world : L.World) : Task → Task → Prop where
  | node {tree : Node} {a b : ScopeId} :
    L.scopes world a b → L.Tasks world (.node tree a) (.node tree b)
  | operands {nodes : List Node} {a b : ScopeId} :
    L.scopes world a b → L.Tasks world (.operands nodes a) (.operands nodes b)
  | statements {nodes : List Node} {a b : ScopeId} :
    L.scopes world a b → L.Tasks world (.statements nodes a) (.statements nodes b)
  | rounds {condition body : Node} {increment : Option Node} {a b : ScopeId} :
    L.scopes world a b →
      L.Tasks world (.rounds condition body increment a) (.rounds condition body increment b)
  | call {x y : Value} {xs ys : List Value} {span : Span} :
    L.Values world x y → L.ValueLists world xs ys → L.Tasks world (.call x xs span) (.call y ys span)

def TaskResults (L : Likeness) (world : L.World) :
    (first second : Task) → first.Result → second.Result → Prop
  | .node .., .node .., x, y => L.Completions world x y
  | .operands .., .operands .., xs, ys => L.ValueLists world xs ys
  | .statements .., .statements .., x, y => L.Completions world x y
  | .rounds .., .rounds .., x, y => L.Completions world x y
  | .call .., .call .., x, y => L.Values world x y
  | _, _, _, _ => False

/-- Plans that ask for what is alike, and come to a good end if they get back what is alike. -/
def Plans (L : Likeness) {α β : Type} (good : L.World → α → β → Prop) :
    L.World → Plan α → Plan β → Prop
  | world, .done a, .done b => good world a b
  | world, .effect first next, .effect second after =>
    L.Effects world first second ∧ ∀ later, world ≤ later → ∀ result other,
      L.EffectResults later first second result other →
        L.Plans good later (next result) (after other)
  | world, .task role first next, .task role' second after =>
    role = role' ∧ L.Tasks world first second ∧ ∀ later, world ≤ later → ∀ result other,
      L.TaskResults later first second result other →
        L.Plans good later (next result) (after other)
  | _, _, _ => False

/-! Plans of alike tasks are alike -/

section

variable {α β : Type} {good : L.World → α → β → Prop}

theorem plans_valueOf {node : Node} {a b : ScopeId} {next : Value → Plan α}
    {after : Value → Plan β} (alike : L.scopes world a b)
    (goesOn : ∀ later, world ≤ later → ∀ x y, L.Values later x y →
      L.Plans good later (next x) (after y)) :
    L.Plans good world (.valueOf node a next) (.valueOf node b after) :=
  ⟨rfl, .node alike, fun later before _ _ completions =>
    goesOn later before _ _ completions.value⟩

theorem plans_part {first second : Task} {next : first.Result → Plan α}
    {after : second.Result → Plan β} (alike : L.Tasks world first second)
    (goesOn : ∀ later, world ≤ later → ∀ result other,
      L.TaskResults later first second result other →
        L.Plans good later (next result) (after other)) :
    L.Plans good world (.task .part first next) (.task .part second after) :=
  ⟨rfl, alike, goesOn⟩

theorem plans_refuse {x y : Value} (alike : L.Values world x y) (span : Span) :
    L.Plans good world (.refuse x span) (.refuse y span) :=
  ⟨.refuse alike, fun _ _ result => result.elim⟩

theorem plans_bindEach {a b : ScopeId} {next : Plan α} {after : Plan β} (names : List String)
    {xs ys : List Value} (scopes : L.scopes world a b) (values : L.ValueLists world xs ys)
    (goesOn : ∀ later, world ≤ later → L.Plans good later next after) :
    L.Plans good world (.bindEach a next names xs) (.bindEach b after names ys) := by
  induction names generalizing world xs ys with
  | nil => exact goesOn world (le_refl world)
  | cons name names ih =>
    cases values with
    | nil => exact goesOn world (le_refl world)
    | cons first rest =>
      refine ⟨.define scopes first, fun later before _ _ _ => ?_⟩
      apply ih (L.scopes_mono before scopes) (rest.imp fun _ _ alike => alike.mono before)
      exact fun last after => goesOn last (le_trans before after)

end

theorem plans_normally {x y : Value} {first second : Node} {a b : ScopeId}
    (alike : L.Values world x y) :
    L.Plans (L.TaskResults · (.node first a) (.node second b)) world (.normally x)
      (.normally y) :=
  ⟨alike, .normal⟩

theorem plans_leaving {x y : Signal} {first second : Node} {a b : ScopeId}
    (alike : L.Signals world x y) :
    L.Plans (L.TaskResults · (.node first a) (.node second b)) world (.leaving x)
      (.leaving y) :=
  ⟨.plain rfl, alike⟩

theorem plans_node (tree : Node) {a b : ScopeId} (scopes : L.scopes world a b) :
    L.Plans (L.TaskResults · (.node tree a) (.node tree b)) world (tree.plan a)
      (tree.plan b) := by
  cases tree with
  | number | string | boolean | nil =>
    rw [Node.plan, Node.plan]
    exact plans_normally (.plain rfl)
  | reference span name =>
    rw [Node.plan, Node.plan]
    exact ⟨.lookUp scopes, fun _ _ _ _ alike => plans_normally alike⟩
  | assign span name value =>
    rw [Node.plan, Node.plan]
    apply plans_valueOf scopes
    intro later before x y alike
    refine ⟨.assign (L.scopes_mono before scopes) alike, ?_⟩
    exact fun _ before _ _ _ => plans_normally (alike.mono before)
  | declare span name value =>
    rw [Node.plan, Node.plan]
    apply plans_valueOf scopes
    intro later before x y alike
    refine ⟨.define (L.scopes_mono before scopes) alike, ?_⟩
    exact fun _ _ _ _ _ => plans_normally (.plain rfl)
  | unary span op operand =>
    rw [Node.plan, Node.plan]
    apply plans_valueOf scopes
    intro later before x y alike
    exact ⟨.applyUnary alike, fun _ _ _ _ alike => plans_normally alike⟩
  | binary span op left right =>
    rw [Node.plan, Node.plan]
    apply plans_valueOf scopes
    intro later before x y left
    apply plans_valueOf (L.scopes_mono before scopes)
    intro last after x' y' right
    exact ⟨.applyBinary (left.mono after) right, fun _ _ _ _ alike => plans_normally alike⟩
  | logical span op left right =>
    rw [Node.plan, Node.plan]
    apply plans_valueOf scopes
    intro later before x y left
    -- alike values are alike true, so both sides go on in the same way
    rw [left.decidedBy_eq op]
    split
    · exact plans_normally left
    · apply plans_valueOf (L.scopes_mono before scopes)
      exact fun _ _ _ _ right => plans_normally right
  | call span callee arguments =>
    rw [Node.plan, Node.plan]
    apply plans_valueOf scopes
    intro later before x y callee
    rw [callee.isCallable_eq]
    split
    · apply plans_part (.operands (L.scopes_mono before scopes))
      intro last after xs ys arguments
      apply plans_part (.call (callee.mono after) arguments)
      exact fun _ _ _ _ alike => plans_normally alike
    · exact plans_refuse callee span
  | function span name parameters body =>
    rw [Node.plan, Node.plan]
    refine ⟨.makeClosure scopes, fun later before made other alike => ?_⟩
    refine ⟨.define (L.scopes_mono before scopes) (.closure alike), ?_⟩
    exact fun _ _ _ _ _ => plans_normally (.plain rfl)
  | block span statements =>
    rw [Node.plan, Node.plan]
    refine ⟨.openScope scopes, fun later before inner other alike => ?_⟩
    exact plans_part (.statements alike) fun _ _ _ _ completions => completions
  | branch span condition thenBranch elseBranch =>
    unfold Node.plan
    apply plans_valueOf scopes
    intro later before x y test
    have inside := L.scopes_mono before scopes
    rw [test.isTruthy_eq]
    split
    · exact plans_part (.node inside) fun _ _ _ _ completions => completions
    · cases elseBranch with
      | none => exact plans_normally (.plain rfl)
      | some node => exact plans_part (.node inside) fun _ _ _ _ completions => completions
  | loop span condition body increment =>
    rw [Node.plan, Node.plan]
    exact plans_part (.rounds scopes) fun _ _ _ _ completions => completions
  | «return» span value =>
    cases value with
    | none => exact plans_leaving (.returned (.plain rfl))
    | some value =>
      rw [Node.plan, Node.plan]
      apply plans_valueOf scopes
      exact fun _ _ _ _ alike => plans_leaving (.returned alike)
  | «break» => exact plans_leaving .broken
  | «continue» => exact plans_leaving .continued
  | program span statements =>
    rw [Node.plan, Node.plan]
    exact plans_part (.statements scopes) fun _ _ _ _ completions => completions

theorem plans_operands (nodes : List Node) {a b : ScopeId} (scopes : L.scopes world a b) :
    L.Plans (L.TaskResults · (.operands nodes a) (.operands nodes b)) world
      (Task.operands nodes a).plan (Task.operands nodes b).plan := by
  cases nodes with
  | nil => exact .nil
  | cons first rest =>
    rw [Task.plan, Task.plan]
    apply plans_valueOf scopes
    intro later before x y alike
    apply plans_part (.operands (L.scopes_mono before scopes))
    exact fun _ after _ _ others => .cons (alike.mono after) others

theorem plans_statements (nodes : List Node) {a b : ScopeId} (scopes : L.scopes world a b) :
    L.Plans (L.TaskResults · (.statements nodes a) (.statements nodes b)) world
      (Task.statements nodes a).plan (Task.statements nodes b).plan := by
  cases nodes with
  | nil => exact ⟨.plain rfl, .normal⟩
  | cons first rest =>
    rw [Task.plan, Task.plan]
    apply plans_part (.node scopes)
    rintro later before ⟨value, signal⟩ ⟨_, _⟩ ⟨_, signals⟩
    cases signals with
    | normal =>
      apply plans_part (.statements (L.scopes_mono before scopes))
      exact fun _ _ _ _ completions => completions
    | broken => exact ⟨.plain rfl, .broken⟩
    | continued => exact ⟨.plain rfl, .continued⟩
    | returned alike => exact ⟨.plain rfl, .returned alike⟩

theorem plans_rounds (condition body : Node) (increment : Option Node) {a b : ScopeId}
    (scopes : L.scopes world a b) :
    L.Plans
      (L.TaskResults · (.rounds condition body increment a) (.rounds condition body increment b))
      world (Task.rounds condition body increment a).plan
      (Task.rounds condition body increment b).plan := by
  -- after a round, in whatever world it ends: the other rounds, and before them the increment
  have again {last : L.World} (reached : world ≤ last) :
      L.Plans
        (L.TaskResults · (.rounds condition body increment a)
          (.rounds condition body increment b)) last
        (.task .part (.rounds condition body increment a) .done)
        (.task .part (.rounds condition body increment b) .done) :=
    plans_part (.rounds (L.scopes_mono reached scopes)) fun _ _ _ _ completions => completions
  have stepped {last : L.World} (reached : world ≤ last) (step : Node) :
      L.Plans
        (L.TaskResults · (.rounds condition body increment a)
          (.rounds condition body increment b)) last
        (.valueOf step a fun _ => .task .part (.rounds condition body increment a) .done)
        (.valueOf step b fun _ => .task .part (.rounds condition body increment b) .done) :=
    plans_valueOf (L.scopes_mono reached scopes) fun _ beyond _ _ _ =>
      again (le_trans reached beyond)
  unfold Task.plan
  apply plans_valueOf scopes
  intro later before x y test
  rw [test.isTruthy_eq]
  split
  · apply plans_part (.node (L.scopes_mono before scopes))
    rintro last after ⟨value, signal⟩ ⟨_, _⟩ ⟨_, signals⟩
    have reached := le_trans before after
    cases signals with
    | broken => exact ⟨.plain rfl, .normal⟩
    | returned alike => exact ⟨.plain rfl, .returned alike⟩
    | normal =>
      cases increment with
      | none => exact again reached
      | some step => exact stepped reached step
    | continued =>
      cases increment with
      | none => exact again reached
      | some step => exact stepped reached step
  · exact ⟨.plain rfl, .normal⟩

theorem plans_call {x y : Value} {xs ys : List Value} (span : Span)
    (callees : L.Values world x y) (arguments : L.ValueLists world xs ys) :
    L.Plans (L.TaskResults · (.call x xs span) (.call y ys span)) world
      (Task.call x xs span).plan (Task.call y ys span).plan := by
  cases callees with
  | @closure a b alike =>
    obtain ⟨sameName, sameParameters, sameBody⟩ := L.code alike
    rw [Task.plan, Task.plan, sameName, sameParameters, sameBody, arguments.length_eq]
    refine ⟨.checkArity, fun first atFirst _ _ _ => ?_⟩
    refine ⟨.checkDepth, fun second atSecond _ _ _ => ?_⟩
    have begun := le_trans atFirst atSecond
    refine ⟨.openScope (L.captured (L.closures_mono begun alike)), ?_⟩
    intro third atThird inner other scopes
    apply plans_bindEach b.parameters scopes
    · exact arguments.imp fun _ _ alike => alike.mono (le_trans begun atThird)
    · intro fourth atFourth
      refine ⟨rfl, .statements (L.scopes_mono atFourth scopes), ?_⟩
      -- a body that does not return has `nil` for its value on both sides
      rintro last _ ⟨value, signal⟩ ⟨_, _⟩ ⟨_, signals⟩
      cases signals with
      | returned alike => exact alike
      | _ => exact .plain rfl
  | plain plain =>
    cases x with
    | closure made => cases plain
    | native native =>
      rw [Task.plan, Task.plan, arguments.length_eq]
      refine ⟨.checkArity, fun later before _ _ _ => ?_⟩
      refine ⟨.callNative (arguments.imp fun _ _ alike => alike.mono before), ?_⟩
      exact fun _ _ _ _ alike => alike
    | number | string | boolean | nil => exact plans_refuse (.plain plain) span

/-- Whatever the tree: scopes and functions are handed on, and nothing else is done with them. -/
theorem plans_task {first second : Task} (alike : L.Tasks world first second) :
    L.Plans (L.TaskResults · first second) world first.plan second.plan := by
  cases alike with
  | node scopes => exact plans_node _ scopes
  | operands scopes => exact plans_operands _ scopes
  | statements scopes => exact plans_statements _ scopes
  | rounds scopes => exact plans_rounds _ _ _ scopes
  | call callees arguments => exact plans_call _ callees arguments

theorem plans_program (statements : List Node) {first second : Option Value}
    (root : L.scopes world Machine.root Machine.root)
    (last : Option.Rel (L.Values world) first second) :
    L.Plans (fun later => Option.Rel (L.Values later)) world (.program statements first)
      (.program statements second) := by
  induction statements generalizing world first second with
  | nil => exact last
  | cons statement rest ih =>
    apply plans_part (.node root)
    rintro later before ⟨value, signal⟩ ⟨_, _⟩ ⟨values, signals⟩
    cases signals with
    | returned alike => exact .some alike
    | _ =>
      apply ih (L.scopes_mono before root)
      dsimp only
      split
      · exact .some values
      · exact .none

end Likeness

end Scriptlet
