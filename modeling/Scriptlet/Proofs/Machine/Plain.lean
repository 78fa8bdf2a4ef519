import Scriptlet.Machine.Basic
import Scriptlet.Machine.Operation
import Scriptlet.Proofs.Contract

/-! What operators and built-in functions come to: plain values, and errors of their own. -/

set_option autoImplicit false

namespace Scriptlet

def Value.isClosure : Value → Bool
  | closure _ => true
  | _ => false

def RuntimeError.isOverflow : RuntimeError → Bool
  | stackOverflow .. => true
  | _ => false

/-- A value that is no function of a program. -/
def Value.IsPlain (value : Value) : Prop := value.isClosure = false

/-- An error that is no overflow. -/
def RuntimeError.IsPlain (error : RuntimeError) : Prop := error.isOverflow = false

def PlainResult : Except RuntimeError Value → Prop
  | .ok value => value.IsPlain
  | .error error => error.IsPlain

theorem UnaryOp.plain_apply (op : UnaryOp) (operand : Value) (span : Span) :
    PlainResult (op.apply operand span) := by
  unfold apply
  split <;> rfl

theorem BinaryOp.plain_apply (op : BinaryOp) (left right : Value) (span : Span) :
    PlainResult (op.apply left right span) := by
  -- arithmetic comes to a number or to an error about types
  have onNumbers (op : BinaryOp) {apply : Float → Float → Except RuntimeError Value}
      (plain : ∀ a b, PlainResult (apply a b)) :
      PlainResult (op.onNumbers left right span apply) := by
    unfold BinaryOp.onNumbers
    split
    · exact plain _ _
    · rfl
  have byNonzero (apply : Float → Float → Float) (a b : Float) :
      PlainResult (byNonzero apply span a b) := by
    unfold BinaryOp.byNonzero
    split <;> rfl
  unfold apply
  cases op with
  | equal | notEqual => rfl
  | add =>
    dsimp only
    split
    · rfl
    · exact onNumbers _ fun _ _ => rfl
  | divide => exact onNumbers _ (byNonzero _)
  | modulo => exact onNumbers _ (byNonzero _)
  | _ => exact onNumbers _ fun _ _ => rfl

theorem UnaryOp.isPlain_of_apply {op : UnaryOp} {operand value : Value} {span : Span}
    (applied : op.apply operand span = .ok value) : value.IsPlain := by
  have plain := op.plain_apply operand span
  rw [applied] at plain
  exact plain

theorem UnaryOp.isPlain_of_failed {op : UnaryOp} {operand : Value} {span : Span}
    {error : RuntimeError} (failed : op.apply operand span = .error error) : error.IsPlain := by
  have plain := op.plain_apply operand span
  rw [failed] at plain
  exact plain

theorem BinaryOp.isPlain_of_apply {op : BinaryOp} {left right value : Value} {span : Span}
    (applied : op.apply left right span = .ok value) : value.IsPlain := by
  have plain := op.plain_apply left right span
  rw [applied] at plain
  exact plain

theorem BinaryOp.isPlain_of_failed {op : BinaryOp} {left right : Value} {span : Span}
    {error : RuntimeError} (failed : op.apply left right span = .error error) : error.IsPlain := by
  have plain := op.plain_apply left right span
  rw [failed] at plain
  exact plain

/-- A function of the host that makes no functions of programs and reports no overflows. -/
def Behaviour.IsPlain (behaviour : Behaviour) : Prop :=
  ∀ arguments span host,
    (behaviour arguments span host).Meets (fun value _ => value.IsPlain)
      fun error _ => error.IsPlain

namespace Builtin

theorem isPlain_write (text failure : String) (span : Span) (host : Host) :
    (Host.write text failure span host).Meets (fun _ _ => True) fun error _ => error.IsPlain := by
  unfold Host.write
  split
  · trivial
  · rfl

theorem isPlain_print : Behaviour.IsPlain print := by
  intro arguments span host
  refine Action.meets_bind (isPlain_write _ _ _ host) fun _ host _ => ?_
  refine Action.meets_bind (isPlain_write _ _ _ host) fun _ host _ => ?_
  rfl

theorem isPlain_ofNumber {name : String} {apply : Float → Span → Action RuntimeError Host Value}
    (plain : ∀ value span host,
      (apply value span host).Meets (fun value _ => value.IsPlain) fun error _ => error.IsPlain) :
    Behaviour.IsPlain (ofNumber name apply) := by
  intro arguments span host
  unfold ofNumber
  cases first arguments with
  | number value => exact plain value span host
  | _ => rfl

theorem isPlain_len : Behaviour.IsPlain len := by
  intro arguments span host
  unfold len
  cases first arguments <;> rfl

theorem isPlain_sqrt : Behaviour.IsPlain sqrt := by
  refine isPlain_ofNumber fun value span host => ?_
  split <;> rfl

theorem isPlain_clock : Behaviour.IsPlain clock := by
  intro arguments span host
  rw [clock, Action.bind_apply, Host.readClock]
  cases host.clock.reading? host.asked <;> rfl

theorem isPlain_all : ∀ entry ∈ all, Behaviour.IsPlain entry.2.2 := by
  simp only [all, List.forall_mem_cons]
  refine ⟨isPlain_print, ?_, isPlain_len, ?_, ?_, ?_, isPlain_sqrt, isPlain_clock,
    by simp⟩
  · exact fun _ _ _ => rfl
  · exact fun _ _ _ => rfl
  · exact isPlain_ofNumber fun _ _ _ => rfl
  · exact isPlain_ofNumber fun _ _ _ => rfl

end Builtin

theorem Machine.start_induction_on {P : Machine → Prop} {Q : Behaviour → Prop} {limit : Nat}
    {sink : Sink} {clock : Clock} (known : ∀ entry ∈ Builtin.all, Q entry.2.2)
    (blank : P
      { store := (Store.empty.addFrame none).2, behaviours := #[], host := ⟨sink, clock, 0⟩,
        depth := 0, limit := limit, closures := 0 })
    (register : ∀ machine name arity behaviour, P machine → Q behaviour →
      P (machine.register name arity behaviour)) : P (start limit sink clock) := by
  -- one function after the other
  have registered (entries : List (String × Arity × Behaviour))
      (known : ∀ entry ∈ entries, Q entry.2.2) (machine : Machine) (holds : P machine) :
      P (entries.foldl
        (fun machine entry => machine.register entry.1 entry.2.1 entry.2.2) machine) := by
    induction entries generalizing machine with
    | nil => exact holds
    | cons entry rest ih =>
      obtain ⟨first, others⟩ := List.forall_mem_cons.mp known
      exact ih others _ (register machine _ _ _ holds first)
  unfold start
  exact registered Builtin.all known _ blank

theorem Machine.start_induction {P : Machine → Prop} {limit : Nat} {sink : Sink}
    {clock : Clock}
    (blank : P
      { store := (Store.empty.addFrame none).2, behaviours := #[], host := ⟨sink, clock, 0⟩,
        depth := 0, limit := limit, closures := 0 })
    (register : ∀ machine name arity behaviour, P machine → behaviour.IsPlain →
      P (machine.register name arity behaviour)) : P (start limit sink clock) :=
  start_induction_on Builtin.isPlain_all blank register

end Scriptlet
