import Scriptlet.Proofs.Machine.Declarations
import Scriptlet.Proofs.Machine.Stage
import Scriptlet.Proofs.Scope.Lookup

/-! Scopes that bind nothing. An expression comes to the same there as in the scope around. -/

set_option autoImplicit false

namespace Scriptlet

/-- A scope without names, right within another one. -/
structure Store.IsBlank (inner outer : ScopeId) (store : Store) : Prop where
  around : store.around? inner = some outer
  empty : ∀ name, store.bindsLocally inner name = false

namespace Store.IsBlank

variable {inner outer : ScopeId} {store : Store}

theorem owner?_eq (blank : store.IsBlank inner outer) (name : String) :
    store.owner? inner name = store.owner? outer name := by
  rw [owner?_eq_around, blank.empty, blank.around]
  rfl

theorem get_eq (blank : store.IsBlank inner outer) (name : String) (span : Span) :
    store.get inner name span = store.get outer name span := by
  rw [get_eq_owner, get_eq_owner store outer, blank.owner?_eq]

theorem define (blank : store.IsBlank inner outer) {scope : ScopeId} (elsewhere : scope ≠ inner)
    (name : String) (value : Value) : (store.define scope name value).IsBlank inner outer where
  around := by rw [around?_define, blank.around]
  empty bound := by
    rw [bindsLocally_define, blank.empty]
    simp [elsewhere.symm]

theorem of_kept (blank : store.IsBlank inner outer) {after : Store}
    (names : store.KeepsNames (fun scope => scope ≠ inner) after) (links : store.SameLinks after) :
    after.IsBlank inner outer where
  around := by
    rw [around?, links.outer inner (inside_of_around? blank.around)]
    exact blank.around
  empty name := by
    rw [names.same inner (inside_of_around? blank.around) (fun other => other rfl), blank.empty]

theorem addFrame (store : Store) (inside : outer < store.size) :
    (store.addFrame (some outer)).2.IsBlank store.size outer where
  around := by rw [around?_addFrame store inside, if_pos rfl]
  empty name := by
    rw [bindsLocally_addFrame]
    simp [bindsLocally, bindingsAt, Bindings.binds, Bindings.find?]

end Store.IsBlank

/-! What keeps a scope blank -/

section

variable {inner outer : ScopeId} {machine : Machine}

theorem Task.keeps_blank (task : Task) (apart : ∀ scope, task.Declares scope → scope ≠ inner)
    (blank : machine.store.IsBlank inner outer) (fuel : Nat) :
    (task.run fuel machine).Meets (fun _ after => after.store.IsBlank inner outer)
      fun _ after => after.store.IsBlank inner outer := by
  have fits : ∀ scope, task.Declares scope →
      machine.store.Admits (fun scope => scope ≠ inner) scope :=
    fun scope declares => .inl (apart scope declares)
  have names := nameContract_sound.run fuel .part task machine fits (.refl _)
  have links := Machine.sameLinks_kept.run fuel task machine
  exact (names.and links).mono (fun _ _ kept => blank.of_kept kept.1.2 kept.2)
    fun _ _ kept => blank.of_kept kept.1 kept.2

/-- Two actions do the same where a scope is blank, and leave it so. -/
def Evaluation.Coincide (inner outer : ScopeId) {α : Type} (first second : Evaluation α) : Prop :=
  ∀ machine : Machine, machine.store.IsBlank inner outer →
    first machine = second machine ∧
      (first machine).Meets (fun _ after => after.store.IsBlank inner outer) fun _ _ => True

namespace Evaluation.Coincide

variable {α β : Type} {first second : Evaluation α} {next after : α → Evaluation β}

theorem bind (parts : Coincide inner outer first second)
    (later : ∀ value, Coincide inner outer (next value) (after value)) :
    Coincide inner outer (first >>= next) (second >>= after) := by
  intro machine blank
  obtain ⟨same, meets⟩ := parts machine blank
  rw [Action.bind_apply, Action.bind_apply, ← same]
  cases outcome : first machine with
  | done value reached =>
    rw [outcome] at meets
    exact later value reached meets
  | failed error reached => exact ⟨rfl, trivial⟩
  | cutOff => exact ⟨rfl, trivial⟩

theorem pure (value : α) : Coincide inner outer (pure value) (pure value) :=
  fun _ blank => ⟨rfl, blank⟩

theorem fail (error : RuntimeError) :
    Coincide inner outer (Action.fail error : Evaluation α) (Action.fail error) :=
  fun _ _ => ⟨rfl, trivial⟩

theorem cutOff : Coincide inner outer (Action.cutOff : Evaluation α) Action.cutOff :=
  fun _ _ => ⟨rfl, trivial⟩

theorem ofExcept (result : Except RuntimeError Value) :
    Coincide inner outer (Evaluation.ofExcept result) (Evaluation.ofExcept result) := by
  cases result with
  | ok value => exact pure value
  | error error => exact fail error

theorem valueOf {first second : Evaluation Completion} (parts : Coincide inner outer first second) :
    Coincide inner outer (Evaluation.valueOf first) (Evaluation.valueOf second) :=
  parts.bind fun completion => pure completion.value

theorem call (fuel : Nat) (callee : Value) (arguments : List Value) (span : Span) :
    Coincide inner outer (Evaluation.call fuel callee arguments span)
      (Evaluation.call fuel callee arguments span) := by
  refine fun machine blank => ⟨rfl, ?_⟩
  have kept := (Task.call callee arguments span).keeps_blank (fun _ none => none.elim) blank fuel
  exact kept.mono (fun _ _ blank => blank) fun _ _ _ => trivial

theorem lookUp (name : String) (span : Span) :
    Coincide inner outer (Evaluation.lookUp inner name span)
      (Evaluation.lookUp outer name span) := by
  intro machine blank
  unfold Evaluation.lookUp
  rw [blank.get_eq]
  cases machine.store.get outer name span with
  | ok value => exact ⟨rfl, blank⟩
  | error error => exact ⟨rfl, trivial⟩

theorem assign (name : String) (value : Value) (span : Span) :
    Coincide inner outer (Evaluation.assign inner name value span)
      (Evaluation.assign outer name value span) := by
  intro machine blank
  unfold Evaluation.assign
  rw [blank.owner?_eq]
  cases found : machine.store.owner? outer name with
  | some owner =>
    -- the scope that owns the name binds it, and the blank one binds none
    have elsewhere : owner ≠ inner := by
      rintro rfl
      have binds := Store.bindsLocally_of_owner? found
      rw [blank.empty] at binds
      cases binds
    exact ⟨rfl, blank.define elsewhere name value⟩
  | none => exact ⟨rfl, trivial⟩

end Evaluation.Coincide

theorem Evaluation.coincide_evaluateEach {nodes : List Node}
    (each : ∀ node ∈ nodes, ∀ fuel,
      Coincide inner outer (evaluate fuel node inner) (evaluate fuel node outer)) (fuel : Nat) :
    Coincide inner outer (evaluateEach fuel nodes inner) (evaluateEach fuel nodes outer) := by
  induction nodes generalizing fuel with
  | nil =>
    cases fuel with
    | zero =>
      rw [evaluateEach, evaluateEach]
      exact .cutOff
    | succ fuel =>
      rw [evaluateEach, evaluateEach]
      exact .pure []
  | cons first rest ih =>
    obtain ⟨own, others⟩ := List.forall_mem_cons.mp each
    cases fuel with
    | zero =>
      rw [evaluateEach, evaluateEach]
      exact .cutOff
    | succ fuel =>
      rw [evaluateEach, evaluateEach]
      exact (own fuel).valueOf.bind fun value => (ih others fuel).bind fun values => .pure _

/-- An expression declares no names, so it does not matter that a scope is there for them. -/
theorem Node.IsOperand.coincide {tree : Node} (operand : tree.IsOperand) (fuel : Nat) :
    Evaluation.Coincide inner outer (Evaluation.evaluate fuel tree inner)
      (Evaluation.evaluate fuel tree outer) := by
  induction operand generalizing fuel with
  | @intro tree kind _ ih =>
    cases fuel with
    | zero =>
      rw [Evaluation.evaluate, Evaluation.evaluate]
      exact .cutOff
    | succ fuel =>
      have part {child : Node} (member : child ∈ tree.children) :=
        (ih child member fuel).valueOf
      cases tree with
      | number | string | boolean | nil =>
        rw [Evaluation.evaluate, Evaluation.evaluate]
        exact .pure _
      | reference span name =>
        rw [Evaluation.evaluate, Evaluation.evaluate]
        exact (Evaluation.Coincide.lookUp name span).bind fun value => .pure _
      | assign span name value =>
        rw [Evaluation.evaluate, Evaluation.evaluate]
        refine (part (by simp [children])).bind fun value => ?_
        exact (Evaluation.Coincide.assign name value span).bind fun _ => .pure _
      | unary span op operand =>
        rw [Evaluation.evaluate, Evaluation.evaluate]
        refine (part (by simp [children])).bind fun value => ?_
        exact (Evaluation.Coincide.ofExcept _).bind fun _ => .pure _
      | binary span op left right =>
        rw [Evaluation.evaluate, Evaluation.evaluate]
        refine (part (by simp [children])).bind fun first => ?_
        refine (part (by simp [children])).bind fun second => ?_
        exact (Evaluation.Coincide.ofExcept _).bind fun _ => .pure _
      | logical span op left right =>
        rw [Evaluation.evaluate, Evaluation.evaluate]
        refine (part (by simp [children])).bind fun first => ?_
        split
        · exact .pure _
        · exact (part (by simp [children])).bind fun _ => .pure _
      | call span callee arguments =>
        rw [Evaluation.evaluate, Evaluation.evaluate]
        refine (part (by simp [children])).bind fun value => ?_
        split
        · have each := Evaluation.coincide_evaluateEach
            (fun node member => ih node (List.mem_cons_of_mem callee member)) fuel
          refine each.bind fun values => ?_
          exact (Evaluation.Coincide.call fuel value values span).bind fun _ => .pure _
        · exact .fail _
      | _ => cases kind

end

end Scriptlet
