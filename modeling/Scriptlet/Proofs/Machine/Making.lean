import Scriptlet.Proofs.Machine.CallTree
import Scriptlet.Proofs.Machine.Domain
import Scriptlet.Proofs.Scope.Bound
import Scriptlet.Proofs.Scope.Chain

/-! The functions that programs make, in the order in which they make them.

Functions are told apart by their place in that order. No value is a function that has not been made,
and none has been made in a scope that has not been there.
-/

set_option autoImplicit false

namespace Scriptlet

/-! What an evaluation makes -/

def Outcome.thenMade {ε α : Type} (outcome : Outcome ε Machine α)
    (later : α → Machine → List Closure) : List Closure :=
  match outcome with
  | .done value machine => later value machine
  | _ => []

def Effect.makes : (change : Effect) → change.Result → List Closure
  | .makeClosure .., closure => [closure]
  | _, _ => []

def Effect.made (change : Effect) (machine : Machine) : List Closure :=
  (change.run machine).thenMade fun result _ => change.makes result

def Plan.made (inside : Task → Machine → List Closure) (fuel : Nat) {α : Type} :
    Plan α → Machine → List Closure
  | .done _, _ => []
  | .effect change next, machine =>
    change.made machine ++ (change.run machine).thenMade fun result reached =>
      (next result).made inside fuel reached
  | .task role part next, machine =>
    inside part (role.enter machine) ++
      (role.around (part.run fuel) machine).thenMade fun result reached =>
        (next result).made inside fuel reached

/-- All functions that are made while a task is evaluated, one for each time that a definition of a
function is executed. -/
def Task.made : Nat → Task → Machine → List Closure
  | 0, _, _ => []
  | fuel + 1, task, machine => task.plan.made (fun part => part.made fuel) fuel machine

/-! What has been made -/

/-- The functions that have been made so far, and how many scopes have. -/
structure History where
  functions : List Closure
  scopes : Nat

instance : Preorder History where
  le first second := first.functions <+: second.functions ∧ first.scopes ≤ second.scopes
  le_refl history := ⟨List.prefix_rfl, Nat.le_refl _⟩
  le_trans _ _ _ first second := ⟨first.1.trans second.1, Nat.le_trans first.2 second.2⟩

def Domain.made : Domain where
  World := History
  order := inferInstance
  scopes history scope := scope < history.scopes
  closures history closure := closure ∈ history.functions ∧ closure.scope < history.scopes
  scopes_mono before inside := Nat.lt_of_lt_of_le inside before.2
  closures_mono before known := ⟨before.1.subset known.1, Nat.lt_of_lt_of_le known.2 before.2⟩
  captured known := known.2

def Value.IsFrom (made : List Closure) : Value → Prop
  | .closure function => function ∈ made
  | _ => True

theorem Value.IsFrom.mono {value : Value} {made later : List Closure} (known : value.IsFrom made)
    (before : made ⊆ later) : value.IsFrom later := by
  cases value with
  | closure closure => exact before known
  | _ => trivial

theorem Value.IsPlain.isFrom {value : Value} (plain : value.IsPlain) (made : List Closure) :
    value.IsFrom made := by
  cases value with
  | closure closure => cases plain
  | _ => trivial

/-- A function of the host that gives back no functions of programs but its arguments and what it
knows. -/
def Behaviour.IsConfined (known : List Closure) (behaviour : Behaviour) : Prop :=
  ∀ arguments span host, (behaviour arguments span host).Meets
    (fun value _ => value.IsFrom known ∨ value ∈ arguments) fun _ _ => True

theorem Behaviour.IsConfined.mono {behaviour : Behaviour} {known later : List Closure}
    (confined : behaviour.IsConfined known) (before : known ⊆ later) :
    behaviour.IsConfined later := fun arguments span host =>
  (confined arguments span host).imp fun _ _ => Or.imp_left fun isFrom => isFrom.mono before

theorem Behaviour.IsPlain.isConfined {behaviour : Behaviour} (plain : behaviour.IsPlain)
    (known : List Closure) : behaviour.IsConfined known := fun arguments span host =>
  (plain arguments span host).mono (fun _ _ isPlain => .inl (isPlain.isFrom known))
    fun _ _ _ => trivial

/-- A machine and the functions that have been made in it: each is known by its place among them, it
has been made in a scope that is there, and whatever is bound to names is one of them or plain. -/
structure Machine.IsOrderly (made : List Closure) (machine : Machine) : Prop where
  linked : machine.store.IsLinked
  count : machine.closures = made.length
  identity : ∀ (place : Nat) (closure : Closure), made[place]? = some closure →
    closure.identity = place
  captured : ∀ closure ∈ made, closure.scope < machine.store.size
  bound : machine.store.All (Value.IsFrom made)
  behaviours : ∀ behaviour ∈ machine.behaviours, Behaviour.IsConfined made behaviour

def Machine.history (machine : Machine) (made : List Closure) : History :=
  ⟨made, machine.store.size⟩

@[simp] theorem Role.history_enter (role : Role) (machine : Machine) (made : List Closure) :
    (role.enter machine).history made = machine.history made := by
  cases role <;> rfl

@[simp] theorem Role.history_leave (role : Role) (machine : Machine) (made : List Closure) :
    (role.leave machine).history made = machine.history made := by
  cases role <;> rfl

namespace Machine.IsOrderly

variable {made : List Closure} {machine : Machine}

theorem of_eq {after : Machine} (orderly : machine.IsOrderly made)
    (store : after.store = machine.store) (closures : after.closures = machine.closures)
    (behaviours : after.behaviours = machine.behaviours) : after.IsOrderly made := by
  obtain ⟨linked, count, identity, captured, bound, confined⟩ := orderly
  exact ⟨store ▸ linked, closures ▸ count, identity, store ▸ captured, store ▸ bound,
    behaviours ▸ confined⟩

theorem enter (orderly : machine.IsOrderly made) (role : Role) :
    (role.enter machine).IsOrderly made := by
  cases role <;> exact orderly.of_eq rfl rfl rfl

theorem leave (orderly : machine.IsOrderly made) (role : Role) :
    (role.leave machine).IsOrderly made := by
  cases role <;> exact orderly.of_eq rfl rfl rfl

theorem values (orderly : machine.IsOrderly made) {value : Value} (known : value.IsFrom made) :
    Domain.made.Values (machine.history made) value := by
  cases value with
  | closure closure => exact ⟨known, orderly.captured closure known⟩
  | _ => trivial

theorem tasks_call (orderly : machine.IsOrderly made) {callee : Value} {arguments : List Value}
    (known : callee.IsFrom made) (given : ∀ value ∈ arguments, value.IsFrom made) (span : Span) :
    Domain.made.Tasks (machine.history made) (.call callee arguments span) :=
  ⟨orderly.values known, fun value member => orderly.values (given value member)⟩

theorem modify (orderly : machine.IsOrderly made) (scope : ScopeId)
    {change : Bindings → Bindings}
    (keeps : ∀ bindings : Bindings, bindings.All (Value.IsFrom made) →
      (change bindings).All (Value.IsFrom made)) :
    { machine with store := machine.store.modify scope change }.IsOrderly made where
  linked := orderly.linked.modify scope change
  count := orderly.count
  identity := orderly.identity
  captured := by simpa using orderly.captured
  bound := orderly.bound.modify scope keeps
  behaviours := orderly.behaviours

theorem define (orderly : machine.IsOrderly made) (scope : ScopeId) (name : String)
    {value : Value} (known : value.IsFrom made) :
    { machine with store := machine.store.define scope name value }.IsOrderly made :=
  orderly.modify scope fun _ bound => bound.put name known

theorem addFrame (orderly : machine.IsOrderly made) {outer : ScopeId}
    (inside : outer < machine.store.size) :
    { machine with store := (machine.store.addFrame (some outer)).2 }.IsOrderly made where
  linked := orderly.linked.addFrame inside
  count := orderly.count
  identity := orderly.identity
  captured closure member := by
    have before := orderly.captured closure member
    rw [Store.size_addFrame]
    exact Nat.lt_succ_of_lt before
  bound := orderly.bound.addFrame _
  behaviours := orderly.behaviours

theorem make (orderly : machine.IsOrderly made) {closure : Closure}
    (next : closure.identity = machine.closures) (inside : closure.scope < machine.store.size) :
    { machine with closures := machine.closures + 1 }.IsOrderly (made ++ [closure]) where
  linked := orderly.linked
  count := by simp [orderly.count]
  identity place other found := by
    rcases Nat.lt_or_ge place made.length with old | isNew
    · rw [List.getElem?_append_left old] at found
      exact orderly.identity place other found
    · rw [List.getElem?_append_right isNew] at found
      have isLast : place - made.length = 0 := by
        have inside := (List.getElem?_eq_some_iff.mp found).1
        simpa using inside
      rw [isLast] at found
      cases found
      rw [next, orderly.count]
      omega
  captured other member := by
    rcases List.mem_append.mp member with old | isNew
    · exact orderly.captured other old
    · rw [List.mem_singleton.mp isNew]
      exact inside
  bound frame member entry bound :=
    (orderly.bound frame member entry bound).mono (List.subset_append_left _ _)
  behaviours behaviour member :=
    (orderly.behaviours behaviour member).mono (List.subset_append_left _ _)

theorem register (orderly : machine.IsOrderly made) (name : String) (arity : Arity)
    {behaviour : Behaviour} (confined : behaviour.IsConfined made) :
    (machine.register name arity behaviour).IsOrderly made where
  linked := orderly.linked.modify root _
  count := orderly.count
  identity := orderly.identity
  captured := by simpa [Machine.register] using orderly.captured
  bound := orderly.bound.define root name trivial
  behaviours other member := by
    rcases Array.mem_push.mp member with old | rfl
    · exact orderly.behaviours other old
    · exact confined

end Machine.IsOrderly

theorem Machine.start_isOrderly (limit : Nat) (sink : Sink) (clock : Clock) :
    (start limit sink clock).IsOrderly [] := by
  apply start_induction
  · exact ⟨.blank, rfl, by simp, by simp, Store.All.empty.addFrame none, by simp⟩
  · intro machine name arity behaviour orderly plain
    exact orderly.register name arity (plain.isConfined [])

/-! What is made is added to what has been made -/

/-- However it ends, a machine is as orderly as it was, with more functions made; and a value it has
is good by then. -/
def Machine.Records (before : Machine) (made more : List Closure) {α : Type}
    (good : History → α → Prop) (outcome : Outcome RuntimeError Machine α) : Prop :=
  outcome.Meets
    (fun value after => after.IsOrderly (made ++ more) ∧
      before.history made ≤ after.history (made ++ more) ∧
      good (after.history (made ++ more)) value)
    fun _ after => after.IsOrderly (made ++ more)

section

variable {made : List Closure} {machine : Machine}

theorem Domain.isFrom_of_values {history : History} {value : Value}
    (known : Domain.made.Values history value) : value.IsFrom history.functions := by
  cases value with
  | closure closure => exact known.1
  | _ => trivial

theorem Machine.Records.bind {α β : Type} {first : Evaluation α} {next : α → Evaluation β}
    {more : List Closure} {later : α → Machine → List Closure} {middle : History → α → Prop}
    {good : History → β → Prop} (records : machine.Records made more middle (first machine))
    (goesOn : ∀ (value : α) (reached : Machine), reached.IsOrderly (made ++ more) →
      machine.history made ≤ reached.history (made ++ more) →
      middle (reached.history (made ++ more)) value →
        reached.Records (made ++ more) (later value reached) good (next value reached)) :
    machine.Records made (more ++ (first machine).thenMade later) good
      ((first >>= next) machine) := by
  rw [Action.bind_apply]
  cases outcome : first machine with
  | done value reached =>
    rw [outcome] at records
    obtain ⟨orderly, before, holds⟩ := records
    dsimp only [Outcome.thenMade]
    rw [Records, ← List.append_assoc]
    apply (goesOn value reached orderly before holds).imp
    rintro result after ⟨orderly, later, holds⟩
    exact ⟨orderly, before.trans later, holds⟩
  | failed error reached =>
    rw [outcome] at records
    dsimp only [Outcome.thenMade]
    rwa [List.append_nil]
  | cutOff => trivial

theorem Effect.records (change : Effect) (orderly : machine.IsOrderly made)
    (alike : Domain.made.likeness.Effects (machine.history made) change change) :
    machine.Records made (change.made machine)
      (fun history result => Domain.made.likeness.EffectResults history change change result result)
      (change.run machine) := by
  -- but for one kind of effect, nothing is made
  have same : machine.IsOrderly (made ++ []) := by rwa [List.append_nil]
  have later {after : Machine} {more : List Closure}
      (larger : machine.store.size ≤ after.store.size) :
      machine.history made ≤ after.history (made ++ more) := ⟨List.prefix_append _ _, larger⟩
  have known {value : Value}
      (alike : Domain.made.likeness.Values (machine.history made) value value) :
      value.IsFrom (made ++ []) :=
    (Domain.isFrom_of_values (Domain.values_iff.mp alike).2).mono (List.subset_append_left made [])
  have meets := change.meets_run machine
  unfold Effect.made
  cases outcome : change.run machine with
  | done result after =>
    rw [outcome] at meets
    dsimp only [Outcome.thenMade]
    cases meets with
    | lookUp found =>
      have inside := same.values (same.bound.of_get found)
      exact ⟨same, later (Nat.le_refl _), Domain.values_iff.mpr ⟨rfl, inside⟩⟩
    | assign found =>
      cases alike with
      | assign _ values => exact ⟨same.define _ _ (known values), later (by simp), trivial⟩
    | define =>
      cases alike with
      | define _ values => exact ⟨same.define _ _ (known values), later (by simp), trivial⟩
    | @openScope outer =>
      cases alike with
      | openScope scopes =>
        have opened : machine.store.size < (machine.store.addFrame outer).2.size := by simp
        exact ⟨same.addFrame scopes.2, later (by simp), rfl, opened⟩
    | makeClosure =>
      cases alike with
      | makeClosure scopes =>
        exact ⟨orderly.make rfl scopes.2, later (Nat.le_refl _), rfl,
          List.mem_append_right made (List.mem_singleton_self _), scopes.2⟩
    | applyUnary applied =>
      exact ⟨same, later (Nat.le_refl _), .plain (UnaryOp.isPlain_of_apply applied)⟩
    | applyBinary applied =>
      exact ⟨same, later (Nat.le_refl _), .plain (BinaryOp.isPlain_of_apply applied)⟩
    | checkArity => exact ⟨same, later (Nat.le_refl _), trivial⟩
    | checkDepth => exact ⟨same, later (Nat.le_refl _), trivial⟩
    | @callNative native arguments span _ behaviour value host found given =>
      cases alike with
      | callNative alike =>
        have confined := orderly.behaviours behaviour (Array.mem_of_getElem? found) arguments span
          machine.host
        rw [given] at confined
        have inside : Domain.made.Values (machine.history (made ++ [])) value := by
          rcases confined with isFrom | isArgument
          · exact same.values (isFrom.mono (List.subset_append_left made []))
          · have holds := (Domain.valueLists_iff.mp alike).2 value isArgument
            exact Domain.values_mono (later (Nat.le_refl _)) holds
        exact ⟨same.of_eq rfl rfl rfl, later (Nat.le_refl _), Domain.values_iff.mpr ⟨rfl, inside⟩⟩
  | failed error after =>
    rw [outcome] at meets
    dsimp only [Outcome.thenMade]
    cases meets <;> exact same.of_eq rfl rfl rfl
  | cutOff => trivial

theorem Role.records {role : Role} {α : Type} {more : List Closure} {good : History → α → Prop}
    {action : Evaluation α}
    (records : (role.enter machine).Records made more good (action (role.enter machine))) :
    machine.Records made more good (role.around action machine) := by
  apply meets_around
  apply Outcome.Meets.mono records
  · rintro value after ⟨orderly, before, holds⟩
    rw [history_enter] at before
    rw [history_leave]
    exact ⟨orderly.leave role, before, holds⟩
  · exact fun error after orderly => orderly.leave role

theorem Plan.records {inside : Task → Machine → List Closure} {fuel : Nat}
    (tasks : ∀ {task : Task} {made : List Closure} {machine : Machine}, machine.IsOrderly made →
      Domain.made.likeness.Tasks (machine.history made) task task →
        machine.Records made (inside task machine)
          (fun history result => Domain.made.likeness.TaskResults history task task result result)
          (task.run fuel machine))
    {α : Type} {good : History → α → α → Prop} {plan : Plan α} (orderly : machine.IsOrderly made)
    (alike : Domain.made.likeness.Plans good (machine.history made) plan plan) :
    machine.Records made (plan.made inside fuel machine) (fun history x => good history x x)
      (plan.run fuel machine) := by
  induction plan generalizing made machine with
  | done value =>
    rw [Plan.made, Machine.Records, List.append_nil]
    exact ⟨orderly, le_rfl, alike⟩
  | effect change next ih =>
    obtain ⟨effects, goesOn⟩ := alike
    apply (change.records orderly effects).bind
    intro result reached orderly before results
    exact ih result orderly (goesOn _ before _ _ results)
  | task role part next ih =>
    obtain ⟨_, parts, goesOn⟩ := alike
    rw [← role.history_enter] at parts
    have records := Role.records (tasks (orderly.enter role) parts)
    apply records.bind
    intro result reached orderly before results
    exact ih result orderly (goesOn _ before _ _ results)

theorem Task.records (fuel : Nat) {task : Task} (orderly : machine.IsOrderly made)
    (alike : Domain.made.likeness.Tasks (machine.history made) task task) :
    machine.Records made (task.made fuel machine)
      (fun history result => Domain.made.likeness.TaskResults history task task result result)
      (task.run fuel machine) := by
  induction fuel generalizing task made machine with
  | zero =>
    rw [run_zero]
    trivial
  | succ fuel ih =>
    rw [run_succ, Task.made]
    exact Plan.records ih orderly (Likeness.plans_task alike)

/-! On the way -/

/-- A plan that is followed from a machine leads to what is left of it in another one. -/
inductive Plan.Leads (fuel : Nat) {α : Type} :
    Plan α → Machine → Plan α → Machine → Prop where
  | here {plan : Plan α} {machine : Machine} : Leads fuel plan machine plan machine
  | afterEffect {change : Effect} {next : change.Result → Plan α} {result : change.Result}
    {machine reached there : Machine} {rest : Plan α} :
    change.run machine = .done result reached → Leads fuel (next result) reached rest there →
      Leads fuel (.effect change next) machine rest there
  | afterTask {role : Role} {task : Task} {next : task.Result → Plan α} {result : task.Result}
    {machine reached there : Machine} {rest : Plan α} :
    role.around (task.run fuel) machine = .done result reached →
      Leads fuel (next result) reached rest there →
      Leads fuel (.task role task next) machine rest there

section

variable {fuel : Nat} {α : Type} {plan rest : Plan α} {there : Machine}

theorem Plan.Calls.leads {role : Role} {part : Task}
    (calls : plan.Calls fuel machine role part there) :
    ∃ next before, plan.Leads fuel machine (.task role part next) before ∧
      there = role.enter before := by
  induction calls with
  | here => exact ⟨_, _, .here, rfl⟩
  | afterEffect done _ ih =>
    obtain ⟨next, before, leads, entered⟩ := ih
    exact ⟨next, before, .afterEffect done leads, entered⟩
  | afterTask done _ ih =>
    obtain ⟨next, before, leads, entered⟩ := ih
    exact ⟨next, before, .afterTask done leads, entered⟩

theorem Plan.Performs.leads {change : Effect} (performs : plan.Performs fuel machine change there) :
    ∃ next, plan.Leads fuel machine (.effect change next) there := by
  induction performs with
  | here => exact ⟨_, .here⟩
  | afterEffect done _ ih =>
    obtain ⟨next, leads⟩ := ih
    exact ⟨next, .afterEffect done leads⟩
  | afterTask done _ ih =>
    obtain ⟨next, leads⟩ := ih
    exact ⟨next, .afterTask done leads⟩

/-- A part of all functions has been made by then, and the rest of the plan makes the others. -/
theorem Plan.Leads.orderly {good : History → α → α → Prop}
    (leads : plan.Leads fuel machine rest there) (orderly : machine.IsOrderly made)
    (alike : Domain.made.likeness.Plans good (machine.history made) plan plan) :
    ∃ before, there.IsOrderly (made ++ before) ∧
      Domain.made.likeness.Plans good (there.history (made ++ before)) rest rest ∧
      plan.made (fun part => part.made fuel) fuel machine =
        before ++ rest.made (fun part => part.made fuel) fuel there := by
  induction leads generalizing made with
  | here => exact ⟨[], by rwa [List.append_nil], by rwa [List.append_nil], rfl⟩
  | @afterEffect change next result machine reached there rest done _ ih =>
    obtain ⟨effects, goesOn⟩ := alike
    have records := change.records orderly effects
    rw [done] at records
    obtain ⟨orderly, before, results⟩ := records
    -- what the effect makes comes before all that is made on the way from there
    obtain ⟨more, last, left, same⟩ := ih orderly (goesOn _ before _ _ results)
    rw [List.append_assoc] at last left
    refine ⟨change.made machine ++ more, last, left, ?_⟩
    rw [Plan.made, done, List.append_assoc, ← same]
    rfl
  | @afterTask role task next result machine reached there rest done _ ih =>
    obtain ⟨_, parts, goesOn⟩ := alike
    rw [← role.history_enter] at parts
    have records := Role.records (Task.records fuel (orderly.enter role) parts)
    rw [done] at records
    obtain ⟨orderly, before, results⟩ := records
    obtain ⟨more, last, left, same⟩ := ih orderly (goesOn _ before _ _ results)
    rw [List.append_assoc] at last left
    refine ⟨task.made fuel (role.enter machine) ++ more, last, left, ?_⟩
    rw [Plan.made, done, List.append_assoc, ← same]
    rfl

/-- Something is evaluated while functions are made: a part of all has been made before, and those it
makes come next. -/
def Config.IsAmid (made all : List Closure) (config : Config) : Prop :=
  ∃ before, config.machine.IsOrderly (made ++ before) ∧
    Domain.made.likeness.Tasks (config.machine.history (made ++ before)) config.task config.task ∧
    before ++ config.task.made config.steps config.machine <+: all

theorem Config.IsAmid.of_part {config : Config} {before part all : List Closure}
    (amid : config.IsAmid (made ++ before) part) (within : before ++ part <+: all) :
    config.IsAmid made all := by
  obtain ⟨more, orderly, fits, rest⟩ := amid
  rw [List.append_assoc] at orderly fits
  refine ⟨before ++ more, orderly, fits, List.IsPrefix.trans ?_ within⟩
  rw [List.append_assoc]
  exact (List.prefix_append_right_inj before).mpr rest

theorem Plan.Calls.isAmid {good : History → α → α → Prop} {role : Role} {part : Task}
    (calls : plan.Calls fuel machine role part there) (orderly : machine.IsOrderly made)
    (alike : Domain.made.likeness.Plans good (machine.history made) plan plan) :
    Config.IsAmid made (plan.made (fun part => part.made fuel) fuel machine)
      ⟨fuel, role, part, there⟩ := by
  obtain ⟨next, outside, leads, rfl⟩ := calls.leads
  obtain ⟨before, orderly, ⟨_, fits, _⟩, same⟩ := leads.orderly orderly alike
  refine ⟨before, orderly.enter role, ?_, ?_⟩
  · rwa [Role.history_enter]
  · rw [same, Plan.made, ← List.append_assoc]
    exact List.prefix_append _ _

theorem Plan.Performs.makes {good : History → α → α → Prop} {name : String}
    {parameters : List String} {body : List Node} {scope : ScopeId}
    (performs : plan.Performs fuel machine (.makeClosure name parameters body scope) there)
    (orderly : machine.IsOrderly made)
    (alike : Domain.made.likeness.Plans good (machine.history made) plan plan) :
    (made ++ plan.made (fun part => part.made fuel) fuel machine)[there.closures]? =
      some ⟨there.closures, name, parameters, body, scope⟩ := by
  obtain ⟨next, leads⟩ := performs.leads
  obtain ⟨before, orderly, _, same⟩ := leads.orderly orderly alike
  rw [same, ← List.append_assoc, orderly.count, Plan.made]
  rw [List.getElem?_append_right (Nat.le_refl _), Nat.sub_self, ← orderly.count]
  rfl

end

theorem Config.Within.isAmid {start config : Config} {active : Nat}
    (within : Within start active config) (orderly : start.machine.IsOrderly made)
    (fits : Domain.made.likeness.Tasks (start.machine.history made) start.task start.task) :
    config.IsAmid made (start.task.made start.steps start.machine) := by
  induction within with
  | start => exact ⟨[], by rwa [List.append_nil], by rwa [List.append_nil], List.prefix_rfl⟩
  | step _ calls ih =>
    obtain ⟨before, orderly, fits, part⟩ := ih
    cases calls with
    | intro calls => exact (calls.isAmid orderly (Likeness.plans_task fits)).of_part part

theorem Config.Performs.makes {config : Config} {name : String} {parameters : List String}
    {body : List Node} {scope : ScopeId} {there : Machine}
    (performs : config.Performs (.makeClosure name parameters body scope) there)
    (orderly : config.machine.IsOrderly made)
    (fits : Domain.made.likeness.Tasks (config.machine.history made) config.task config.task) :
    (made ++ config.task.made config.steps config.machine)[there.closures]? =
      some ⟨there.closures, name, parameters, body, scope⟩ := by
  cases performs with
  | intro performs => exact performs.makes orderly (Likeness.plans_task fits)

end

end Scriptlet
