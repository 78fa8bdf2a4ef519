import Scriptlet.Proofs.Machine.Blank
import Scriptlet.Proofs.Machine.Continues
import Scriptlet.Proofs.Machine.Encapsulation
import Scriptlet.Proofs.Machine.Eventual
import Scriptlet.Proofs.Machine.Renaming

/-! The increment of a loop, and the same expression at the end of its body.

The body and the increment then stand in a block of their own, so that each round opens a scope more.
Nothing is ever bound in it, and nothing else tells the two loops apart.
-/

set_option autoImplicit false

namespace Scriptlet

namespace Task

theorem eventual_last_expression {step : Node} (kind : step.isExpression = true)
    (scope : ScopeId) :
    (statements [step] scope).eventual =
      valueOf step scope >>= fun _ => Evaluation.normally .nil := by
  funext machine
  rw [eventual_statements_cons, valueOf, Evaluation.valueOf, bind_assoc, Action.bind_apply,
    Action.bind_apply]
  have leaves : ((node step scope).eventual machine).Meets
      (fun completion after => (node step scope).Leaves completion ∧ True) fun _ _ => True :=
    leavingContract_sound.eventual .part (node step scope) trivial trivial
  cases outcome : (node step scope).eventual machine with
  | done completion reached =>
    rw [outcome] at leaves
    dsimp only
    rw [leaves.1.2 kind, eventual_statements_nil]
    rfl
  | failed error reached => rfl
  | cutOff => rfl

/-- In a blank scope an expression comes to what it comes to in the scope around. -/
theorem valueOf_blank {step : Node} (operand : step.IsOperand) {inner outer : ScopeId}
    {machine : Machine} (blank : machine.store.IsBlank inner outer) :
    valueOf step inner machine = valueOf step outer machine := by
  have same (fuel : Nat) : (node step inner).run fuel machine = (node step outer).run fuel machine :=
    (operand.coincide fuel machine blank).1
  have eventual : (node step inner).eventual machine = (node step outer).eventual machine := by
    obtain ⟨bound, settled⟩ := (node step outer).rises.settles machine
    exact Action.eventually_eq ⟨bound, fun fuel enough => (same fuel).trans (settled fuel enough)⟩
  rw [valueOf, valueOf, Evaluation.valueOf, Evaluation.valueOf, Action.bind_apply,
    Action.bind_apply, eventual]

end Task

/-! Two loops side by side -/

section

variable {places : Places} {a b : Machine} {scope place : ScopeId}

theorem pairs_valueOf (tree : Node) (together : renamingSimulation.machines places a b)
    (known : places.ofScopes[scope]? = some place) :
    renamingSimulation.Pairs places Likeness.renaming.Values (Task.valueOf tree scope a)
      (Task.valueOf tree place b) := by
  have tasks : Likeness.renaming.Tasks places (.node tree scope) (.node tree place) := .node known
  apply Action.pairs_bind (renamingSimulation_sound.eventual tasks together)
  rintro x y reached there ⟨later, before, completions, machines⟩
  exact Simulation.pairs_done before completions.value machines

theorem pairs_block {span : Span} {nodes : List Node}
    (noContinue : ¬(Node.block span nodes).Continues)
    (blind : ∀ behaviour ∈ a.behaviours, Behaviour.IsBlind behaviour) {other : Store}
    (renames : a.store.Renamed places other)
    {inner : ScopeId} (leads : Store.LeadsTo places.ofScopes other scope inner)
    (blank : other.IsBlank inner place) :
    Outcome.Pairs
      (fun x y reached there => (∃ later, places ≤ later ∧
        Likeness.renaming.Completions later x y ∧ renamingSimulation.machines later reached there) ∧
        x.signal ≠ .continued ∧ there.store.IsBlank inner place)
      (fun reached there => ∃ later, places ≤ later ∧
        renamingSimulation.machines later reached there) (fun _ => False)
      ((Task.node (.block span nodes) scope).eventual a)
      ((Task.node (.block span nodes) inner).eventual { a with store := other }) := by
  have pairs : renamingSimulation.Pairs places Likeness.renaming.Completions
      ((Task.node (.block span nodes) scope).eventual a)
      ((Task.node (.block span nodes) inner).eventual { a with store := other }) := by
    have opened : renamingSimulation.Pairs places Likeness.renaming.scopes
        (Evaluation.openScope scope a) (Evaluation.openScope inner { a with store := other }) :=
      renamingSimulation.openScopes blind renames leads
    rw [Task.eventual_block, Task.eventual_block]
    apply Action.pairs_bind opened
    rintro x y reached there ⟨later, before, scopes, machines⟩
    have tasks : Likeness.renaming.Tasks later (.statements nodes x) (.statements nodes y) :=
      .statements scopes
    exact (renamingSimulation_sound.eventual tasks machines).of_later before
  -- no `continue` gets out, since none in the block is meant for the loop
  have leaves : ((Task.node (.block span nodes) scope).eventual a).Meets
      (fun completion _ => completion.signal ≠ .continued) fun _ _ => True := by
    have meets : ((Task.node (.block span nodes) scope).eventual a).Meets
        (fun completion _ => (Task.node (.block span nodes) scope).Leaves completion ∧ True)
        fun _ _ => True :=
      leavingContract_sound.eventual .part (.node (.block span nodes) scope) trivial trivial
    exact meets.imp fun completion _ leaves continued => noContinue (leaves.1.1 continued)
  -- the block declares its names within itself, so the scope around it stays blank
  have keeps : ((Task.node (.block span nodes) inner).eventual { a with store := other }).Meets
      (fun _ there => there.store.IsBlank inner place) fun _ there =>
        there.store.IsBlank inner place := by
    obtain ⟨fuel, same⟩ := (Task.node (.block span nodes) inner).exists_eventual_eq
      { a with store := other }
    rw [same]
    refine Task.keeps_blank _ ?_ blank fuel
    rintro _ ⟨_, declares⟩
    exact absurd declares (Node.not_declares_of_isBlock rfl)
  exact pairs.and_meets leaves keeps

theorem pairs_round {span around : Span} {nodes : List Node} {step : Node}
    (operand : step.IsOperand) (noContinue : ¬(Node.block span nodes).Continues)
    {again again' : Evaluation Completion}
    (goesOn : ∀ later a b, places ≤ later → renamingSimulation.machines later a b →
      renamingSimulation.Pairs later Likeness.renaming.Completions (again a) (again' b))
    (together : renamingSimulation.machines places a b)
    (known : places.ofScopes[scope]? = some place) :
    renamingSimulation.Pairs places Likeness.renaming.Completions
      (((Task.node (.block span nodes) scope).eventual >>= fun completion =>
        Evaluation.turn (Task.stepOf (some step) scope) again completion.signal) a)
      (((Task.node (.block around [.block span nodes, step]) place).eventual >>= fun completion =>
        Evaluation.turn (Task.stepOf none place) again' completion.signal) b) := by
  obtain ⟨blind, other, rfl, renames⟩ := together
  have inside := renames.inside place (List.mem_of_getElem? known)
  have leads := renames.leadsTo_addBlank known
  have opened := renames.addBlank inside
  have blank := Store.IsBlank.addFrame other inside
  have kind : step.isExpression = true := by
    cases operand with
    | intro kind _ => exact kind
  rw [Task.eventual_block around, bind_assoc, Action.bind_apply]
  change renamingSimulation.Pairs places Likeness.renaming.Completions _
    (((Task.statements [.block span nodes, step] other.size).eventual >>= _)
      { a with store := (other.addFrame (some place)).2 })
  rw [Task.eventual_statements_cons, bind_assoc, Task.eventual_last_expression kind]
  apply Action.pairs_bind (pairs_block noContinue blind opened leads blank)
  rintro ⟨value, signal⟩ ⟨_, _⟩ reached there ⟨⟨later, before, ⟨_, signals⟩, machines⟩, goes, blank⟩
  -- where the block is left early, neither side comes to the increment
  cases signals with
  | broken => exact Simulation.pairs_done before ⟨.plain rfl, .normal⟩ machines
  | returned alike => exact Simulation.pairs_done before ⟨.plain rfl, .returned alike⟩ machines
  | continued => exact absurd rfl goes
  | normal =>
    have knownLater := Store.getElem?_of_prefix before known
    change renamingSimulation.Pairs places Likeness.renaming.Completions
      ((Task.valueOf step scope >>= (fun _ => pure ()) >>= fun _ => again) reached)
      ((Task.valueOf step other.size >>= (fun _ => Evaluation.normally .nil) >>= fun completion =>
        Evaluation.turn (pure ()) again' completion.signal) there)
    rw [bind_assoc, bind_assoc, Action.bind_apply (Task.valueOf step other.size),
      Task.valueOf_blank operand blank, ← Action.bind_apply]
    apply Action.pairs_bind (pairs_valueOf step machines knownLater |>.of_later before)
    rintro x y reached there ⟨last, after, _, machines⟩
    exact (goesOn last reached there after machines).of_later after

theorem pairs_laps (condition : Node) {span around : Span} {nodes : List Node} {step : Node}
    (operand : step.IsOperand) (noContinue : ¬(Node.block span nodes).Continues) (count : Nat)
    (together : renamingSimulation.machines places a b)
    (known : places.ofScopes[scope]? = some place) :
    renamingSimulation.Pairs places Likeness.renaming.Completions
      (Evaluation.laps (Task.valueOf condition scope)
        (Task.node (.block span nodes) scope).eventual (Task.stepOf (some step) scope) count a)
      (Evaluation.laps (Task.valueOf condition place)
        (Task.node (.block around [.block span nodes, step]) place).eventual
        (Task.stepOf none place) count b) := by
  induction count generalizing places a b with
  | zero => rfl
  | succ count ih =>
    apply Action.pairs_bind (pairs_valueOf condition together known)
    rintro x y reached there ⟨later, before, values, machines⟩
    have knownLater := Store.getElem?_of_prefix before known
    rw [values.isTruthy_eq]
    split
    · refine (pairs_round operand noContinue (fun last a b after machines => ?_) machines
        knownLater).of_later before
      exact ih machines (Store.getElem?_of_prefix after knownLater)
    · exact Simulation.pairs_done before ⟨.plain rfl, .normal⟩ machines

theorem pairs_loop (condition : Node) {whole span around : Span} {nodes : List Node} {step : Node}
    (operand : step.IsOperand) (noContinue : ¬(Node.block span nodes).Continues)
    (together : renamingSimulation.machines places a b)
    (known : places.ofScopes[scope]? = some place) :
    renamingSimulation.Pairs places Likeness.renaming.Completions
      ((Task.node (.loop whole condition (.block span nodes) (some step)) scope).eventual a)
      ((Task.node (.loop whole condition (.block around [.block span nodes, step]) none)
        place).eventual b) := by
  rw [Task.eventual_loop, Task.eventual_loop, Task.eventual_rounds, Task.eventual_rounds]
  exact Action.pairs_eventually Evaluation.rises_laps Evaluation.rises_laps fun count =>
    pairs_laps condition operand noContinue count together known

end

/-! With whatever number of steps -/

/-- Two outcomes from the same store: the same signal with values that are alike, or the same error,
and machines that differ in their stores only. These are the same but for the places of scopes that
have been made since, and for scopes that bind nothing. -/
def Outcome.SameFrom (store : Store) :
    Outcome RuntimeError Machine Completion → Outcome RuntimeError Machine Completion → Prop :=
  Outcome.Pairs
    (fun x y a b => ∃ places, store.places ≤ places ∧
      Likeness.renaming.Completions places x y ∧ a.Renamed places b)
    (fun a b => ∃ places, store.places ≤ places ∧ a.Renamed places b) fun _ => False

theorem Simulation.Pairs.sameFrom {store : Store}
    {first second : Outcome RuntimeError Machine Completion}
    (pairs : renamingSimulation.Pairs store.places Likeness.renaming.Completions first second) :
    first.SameFrom store second := by
  apply Outcome.Pairs.mono pairs
  · rintro x y a b ⟨places, before, completions, _, renamed⟩
    exact ⟨places, before, completions, renamed⟩
  · rintro a b ⟨places, before, _, renamed⟩
    exact ⟨places, before, renamed⟩

/-- The increment of a loop does what the same expression would do at the end of its body, if no
`continue` in the body is meant for this loop. In any scope of any machine whose links lead to scopes
that are there, and whose functions of the host cannot tell scopes apart, one of the two loops ends if
and only if the other one does: with the same signal or the same error, with the same output, as
many calls under way, and the same store up to the places of new scopes and to empty scopes. -/
theorem Evaluation.increment_ends_body {machine : Machine} (linked : machine.store.IsWhole)
    (blind : ∀ behaviour ∈ machine.behaviours, Behaviour.IsBlind behaviour) {scope : ScopeId}
    (inside : scope < machine.store.size) (whole span around : Span) (condition : Node)
    {step : Node} (operand : step.IsOperand) {nodes : List Node}
    (noContinue : ¬(Node.block span nodes).Continues) :
    Action.EndAlike (Outcome.SameFrom machine.store)
      (fun fuel => evaluate fuel (.loop whole condition (.block span nodes) (some step)) scope
        machine)
      (fun fuel => evaluate fuel
        (.loop whole condition (.block around [.block span nodes, step]) none) scope machine) := by
  have together : renamingSimulation.machines machine.store.places machine machine :=
    ⟨blind, linked.renamed_self⟩
  let first := Task.node (.loop whole condition (.block span nodes) (some step)) scope
  let second := Task.node
    (.loop whole condition (.block around [.block span nodes, step]) none) scope
  have pairs : Outcome.SameFrom machine.store (first.eventual machine) (second.eventual machine) :=
    (pairs_loop condition operand noContinue together (Store.places_self inside)).sameFrom
  exact .of_eventually first.rises second.rises pairs

/-- The loop `for (; len; len = nil) {}`, which makes one round. -/
theorem clearing_increment_ends_body :
    ∃ (span : Span) (condition step : Node) (machine : Machine),
      machine.store.IsWhole ∧ (∀ behaviour ∈ machine.behaviours, Behaviour.IsBlind behaviour) ∧
      Machine.root < machine.store.size ∧ step.IsOperand ∧ ¬(Node.block span []).Continues ∧
      Evaluation.evaluate 4 (.loop span condition (.block span []) (some step)) Machine.root machine ≠
        .cutOff ∧
      Action.EndAlike (Outcome.SameFrom machine.store)
        (fun fuel => Evaluation.evaluate fuel (.loop span condition (.block span []) (some step))
          Machine.root machine)
        fun fuel => Evaluation.evaluate fuel
          (.loop span condition (.block span [.block span [], step]) none) Machine.root machine := by
  let span := Span.point 0
  let step := Node.assign span "len" (.nil span)
  let machine := Machine.start 1 .unlimited ⟨fun _ => some 0⟩
  have orderly : machine.IsOrderly [] := Machine.start_isOrderly 1 .unlimited ⟨fun _ => some 0⟩
  have blind := Machine.start_isBlind 1 .unlimited ⟨fun _ => some 0⟩
  have operand : step.IsOperand := by
    refine .intro rfl ?_
    intro child member
    cases List.mem_singleton.mp member
    exact .intro rfl (by simp [Node.children])
  have noContinue : ¬(Node.block span []).Continues := by
    intro continues
    cases continues with
    | block member _ => exact List.not_mem_nil member
  have ends : Evaluation.evaluate 4 (.loop span (.reference span "len") (.block span []) (some step))
      Machine.root machine ≠ .cutOff := by decide +kernel
  refine ⟨span, .reference span "len", step, machine, orderly.isWhole, blind,
    orderly.linked.rooted, operand, noContinue, ends, ?_⟩
  exact Evaluation.increment_ends_body orderly.isWhole blind orderly.linked.rooted span span span
    (.reference span "len") operand noContinue

end Scriptlet
