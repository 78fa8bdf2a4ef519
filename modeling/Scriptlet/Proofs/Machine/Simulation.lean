import Scriptlet.Proofs.Machine.Likeness

/-! Two machines that evaluate side by side.

If every effect on alike things comes to alike results, every task does. Of effects only those have to
be shown to do so that look at a machine or change it.
-/

set_option autoImplicit false

namespace Scriptlet

/-- Machines that go together in a world, and the errors by which the first machine is lost: what the
second one does from there on is left open. -/
structure Simulation (L : Likeness) where
  machines : L.World → Machine → Machine → Prop
  lost : RuntimeError → Prop

namespace Simulation

variable {L : Likeness} {S : Simulation L} {world later : L.World} {α β : Type}
  {good : L.World → α → β → Prop} {a b : Machine}

/-- Outcomes of the same kind, with results that are good in a world that has come by then. -/
def Pairs (S : Simulation L) (world : L.World) (good : L.World → α → β → Prop) :
    Outcome RuntimeError Machine α → Outcome RuntimeError Machine β → Prop :=
  Outcome.Pairs (fun x y a b => ∃ later, world ≤ later ∧ good later x y ∧ S.machines later a b)
    (fun a b => ∃ later, world ≤ later ∧ S.machines later a b) S.lost

theorem pairs_done {x : α} {y : β} (before : world ≤ later) (results : good later x y)
    (machines : S.machines later a b) : S.Pairs world good (.done x a) (.done y b) :=
  ⟨y, b, rfl, later, before, results, machines⟩

theorem pairs_failed (error : RuntimeError) (machines : S.machines world a b) :
    S.Pairs world good (.failed error a) (.failed error b) :=
  .inr ⟨b, rfl, world, le_refl world, machines⟩

theorem Pairs.of_later {first : Outcome RuntimeError Machine α}
    {second : Outcome RuntimeError Machine β} (pairs : S.Pairs later good first second)
    (before : world ≤ later) : S.Pairs world good first second := by
  apply Outcome.Pairs.mono pairs
  · rintro x y a b ⟨last, after, rest⟩
    exact ⟨last, le_trans before after, rest⟩
  · rintro a b ⟨last, after, rest⟩
    exact ⟨last, le_trans before after, rest⟩

def DoAlike (S : Simulation L) (world : L.World) (first second : Effect) (a b : Machine) : Prop :=
  S.Pairs world (L.EffectResults · first second) (first.run a) (second.run b)

/-- Effects on machines keep them together, and so does counting calls. -/
structure Sound (S : Simulation L) : Prop where
  enter : ∀ {world : L.World} {a b : Machine} (role : Role),
    S.machines world a b → S.machines world (role.enter a) (role.enter b)
  leave : ∀ {world : L.World} {a b : Machine} (role : Role),
    S.machines world a b → S.machines world (role.leave a) (role.leave b)
  lookUp : ∀ {world : L.World} {a b : Machine} {s t : ScopeId} (name : String) (span : Span),
    S.machines world a b → L.scopes world s t →
      S.DoAlike world (.lookUp s name span) (.lookUp t name span) a b
  assign : ∀ {world : L.World} {a b : Machine} {s t : ScopeId} {x y : Value} (name : String)
    (span : Span), S.machines world a b → L.scopes world s t → L.Values world x y →
      S.DoAlike world (.assign s name x span) (.assign t name y span) a b
  define : ∀ {world : L.World} {a b : Machine} {s t : ScopeId} {x y : Value} (name : String),
    S.machines world a b → L.scopes world s t → L.Values world x y →
      S.DoAlike world (.define s name x) (.define t name y) a b
  openScope : ∀ {world : L.World} {a b : Machine} {s t : ScopeId},
    S.machines world a b → L.scopes world s t → S.DoAlike world (.openScope s) (.openScope t) a b
  makeClosure : ∀ {world : L.World} {a b : Machine} {s t : ScopeId} (name : String)
    (parameters : List String) (body : List Node), S.machines world a b → L.scopes world s t →
      S.DoAlike world (.makeClosure name parameters body s) (.makeClosure name parameters body t)
        a b
  checkDepth : ∀ {world : L.World} {a b : Machine} (span : Span), S.machines world a b →
    S.DoAlike world (.checkDepth span) (.checkDepth span) a b
  callNative : ∀ {world : L.World} {a b : Machine} {xs ys : List Value} (native : Native)
    (span : Span), S.machines world a b → L.ValueLists world xs ys →
      S.DoAlike world (.callNative native xs span) (.callNative native ys span) a b

end Simulation

/-! Operators cannot tell apart what is alike -/

namespace Likeness.Values

variable {L : Likeness} {world : L.World} {x y x' y' : Value}

theorem same_eq (left : L.Values world x y) (right : L.Values world x' y') :
    x.same x' = y.same y' := by
  cases left with
  | closure left =>
    cases right with
    | closure right => simp [Value.same, L.identity left right]
    | plain plain => cases x' <;> first | rfl | cases plain
  | plain plain =>
    cases right with
    | closure right => cases x <;> first | rfl | cases plain
    | plain => rfl

theorem applyUnary_eq (operand : L.Values world x y) (op : UnaryOp) (span : Span) :
    op.apply x span = op.apply y span := by
  cases operand with
  | closure => cases op <;> rfl
  | plain => rfl

theorem onNumbers_eq (left : L.Values world x y) (right : L.Values world x' y') (op : BinaryOp)
    (span : Span) (apply : Float → Float → Except RuntimeError Value) :
    op.onNumbers x x' span apply = op.onNumbers y y' span apply := by
  cases left with
  | closure =>
    simp only [BinaryOp.onNumbers, right.type_eq]
    rfl
  | plain =>
    cases right with
    | closure => cases x <;> rfl
    | plain => rfl

theorem applyBinary_eq (left : L.Values world x y) (right : L.Values world x' y') (op : BinaryOp)
    (span : Span) : op.apply x x' span = op.apply y y' span := by
  cases op with
  | equal | notEqual => simp only [BinaryOp.apply, left.same_eq right]
  | add =>
    -- two strings are plain, anything else is left to numbers
    have numbers := left.onNumbers_eq right .add span fun a b => .ok (.number (a + b))
    cases left with
    | closure => exact numbers
    | plain =>
      cases right with
      | closure => cases x <;> exact numbers
      | plain => rfl
  | _ => exact left.onNumbers_eq right _ span _

end Likeness.Values

/-! What effects keep together, evaluation does -/

namespace Simulation

variable {L : Likeness} {S : Simulation L} {world : L.World} {a b : Machine}

theorem pairs_ofExcept {result : Except RuntimeError Value}
    (machines : S.machines world a b)
    (plain : ∀ value, result = .ok value → value.IsPlain) :
    S.Pairs world L.Values (Evaluation.ofExcept result a) (Evaluation.ofExcept result b) := by
  cases result with
  | ok value => exact pairs_done (le_refl world) (.plain (plain value rfl)) machines
  | error error => exact pairs_failed error machines

namespace Sound

theorem effect (sound : S.Sound) {first second : Effect} (alike : L.Effects world first second)
    (machines : S.machines world a b) : S.DoAlike world first second a b := by
  cases alike with
  | lookUp scopes => exact sound.lookUp _ _ machines scopes
  | assign scopes values => exact sound.assign _ _ machines scopes values
  | define scopes values => exact sound.define _ machines scopes values
  | openScope scopes => exact sound.openScope machines scopes
  | makeClosure scopes => exact sound.makeClosure _ _ _ machines scopes
  | checkDepth => exact sound.checkDepth _ machines
  | callNative arguments => exact sound.callNative _ _ machines arguments
  | @applyUnary op x y span operand =>
    change S.Pairs world L.Values (Evaluation.ofExcept (op.apply x span) a)
      (Evaluation.ofExcept (op.apply y span) b)
    rw [← operand.applyUnary_eq op span]
    exact pairs_ofExcept machines fun value applied => UnaryOp.isPlain_of_apply applied
  | @applyBinary op x y x' y' span left right =>
    change S.Pairs world L.Values (Evaluation.ofExcept (op.apply x x' span) a)
      (Evaluation.ofExcept (op.apply y y' span) b)
    rw [← left.applyBinary_eq right op span]
    exact pairs_ofExcept machines fun value applied => BinaryOp.isPlain_of_apply applied
  | refuse callee =>
    rw [DoAlike, Effect.run, Effect.run, callee.type_eq]
    exact pairs_failed _ machines
  | @checkArity name expected found span =>
    rw [DoAlike, Effect.run, Evaluation.checkArity]
    split
    · exact pairs_done (le_refl world) trivial machines
    · exact pairs_failed _ machines

theorem around (sound : S.Sound) (role : Role) {α β : Type} {good : L.World → α → β → Prop}
    {first : Evaluation α} {second : Evaluation β}
    (pairs : S.Pairs world good (first (role.enter a)) (second (role.enter b))) :
    S.Pairs world good (role.around first a) (role.around second b) := by
  apply Action.pairs_around
  apply Outcome.Pairs.mono pairs
  · rintro x y reached there ⟨later, before, results, together⟩
    exact ⟨later, before, results, sound.leave role together⟩
  · rintro reached there ⟨later, before, together⟩
    exact ⟨later, before, sound.leave role together⟩

theorem plan (sound : S.Sound) {fuel : Nat}
    (tasks : ∀ {world : L.World} {first second : Task} {a b : Machine},
      L.Tasks world first second → S.machines world a b →
        S.Pairs world (L.TaskResults · first second) (first.run fuel a) (second.run fuel b))
    {α β : Type} {good : L.World → α → β → Prop} {first : Plan α} {second : Plan β}
    (alike : L.Plans good world first second) (machines : S.machines world a b) :
    S.Pairs world good (first.run fuel a) (second.run fuel b) := by
  -- on the plan, of which the other one is a copy part by part
  induction first generalizing world second a b with
  | done x =>
    cases second with
    | done y => exact pairs_done (le_refl world) alike machines
    | _ => exact alike.elim
  | effect first next ih =>
    cases second with
    | effect second after =>
      obtain ⟨effects, goesOn⟩ := alike
      apply Action.pairs_bind (sound.effect effects machines)
      rintro x y reached there ⟨later, before, results, together⟩
      exact (ih x (goesOn later before x y results) together).of_later before
    | _ => exact alike.elim
  | task role first next ih =>
    cases second with
    | task role' second after =>
      obtain ⟨rfl, parts, goesOn⟩ := alike
      have inside := tasks parts (sound.enter role machines)
      apply Action.pairs_bind (sound.around role inside)
      rintro x y reached there ⟨later, before, results, together⟩
      exact (ih x (goesOn later before x y results) together).of_later before
    | _ => exact alike.elim

/-- Alike tasks come to alike results in machines that go together. -/
theorem run (sound : S.Sound) (fuel : Nat) {first second : Task}
    (alike : L.Tasks world first second) (machines : S.machines world a b) :
    S.Pairs world (L.TaskResults · first second) (first.run fuel a) (second.run fuel b) := by
  induction fuel generalizing world first second a b with
  | zero =>
    rw [Task.run_zero, Task.run_zero]
    rfl
  | succ fuel ih =>
    rw [Task.run_succ, Task.run_succ]
    exact sound.plan ih (Likeness.plans_task alike) machines

end Sound

end Simulation

end Scriptlet
