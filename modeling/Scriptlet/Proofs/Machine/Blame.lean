import Scriptlet.Proofs.Machine.Making

/-! The nodes that errors are about. -/

set_option autoImplicit false

namespace Scriptlet

/-- An error and the node that it is about, which has its span. Other functions of the host than
the built-in ones may report any error in the name of their call. -/
inductive RuntimeError.IsAbout (others : Behaviour → Prop) : RuntimeError → Node → Prop where
  | undefinedVariable {name : String} {span : Span} :
    IsAbout others (.unbound (.undefinedVariable name span)) (.reference span name)
  | undefinedTarget {name : String} {span : Span} {value : Node} :
    IsAbout others (.unbound (.undefinedTarget name span)) (.assign span name value)
  | divisionByZero {op : BinaryOp} {span : Span} {left right : Node} :
    op = .divide ∨ op = .modulo → IsAbout others (.divisionByZero span) (.binary span op left right)
  | operand {op : UnaryOp} {found : ValueType} {span : Span} {operand : Node} :
    IsAbout others (.typeMismatch (.operand op found) span) (.unary span op operand)
  | operands {op : BinaryOp} {first second : ValueType} {span : Span} {left right : Node} :
    IsAbout others (.typeMismatch (.operands op first second) span) (.binary span op left right)
  | argument {function : String} {expected found : ValueType} {span : Span} {callee : Node}
    {arguments : List Node} :
    IsAbout others (.typeMismatch (.argument function expected found) span)
      (.call span callee arguments)
  | arityMismatch {name : String} {expected : Arity} {found : Nat} {span : Span} {callee : Node}
    {arguments : List Node} :
    IsAbout others (.arityMismatch name expected found span) (.call span callee arguments)
  | notCallable {found : ValueType} {span : Span} {callee : Node} {arguments : List Node} :
    IsAbout others (.notCallable found span) (.call span callee arguments)
  | stackOverflow {limit : Nat} {span : Span} {callee : Node} {arguments : List Node} :
    IsAbout others (.stackOverflow limit span) (.call span callee arguments)
  | native {message : String} {span : Span} {callee : Node} {arguments : List Node} :
    IsAbout others (.native message span) (.call span callee arguments)
  | reported {behaviour : Behaviour} {values : List Value} {span : Span} {host after : Host}
    {error : RuntimeError} {callee : Node} {arguments : List Node} :
    others behaviour → behaviour values span host = .failed error after → error.span = span →
      IsAbout others error (.call span callee arguments)

theorem RuntimeError.IsAbout.span_eq {others : Behaviour → Prop} {error : RuntimeError}
    {node : Node} (isAbout : error.IsAbout others node) : error.span = node.span := by
  cases isAbout with
  | reported _ _ same => exact same
  | _ => rfl

theorem UnaryOp.isAbout_of_apply {op : UnaryOp} {value : Value} {span : Span}
    {error : RuntimeError} (failed : op.apply value span = .error error)
    (others : Behaviour → Prop) (operand : Node) :
    error.IsAbout others (.unary span op operand) := by
  unfold apply at failed
  split at failed <;> cases failed
  exact .operand

theorem BinaryOp.isAbout_of_apply {op : BinaryOp} {first second : Value} {span : Span}
    {error : RuntimeError} (failed : op.apply first second span = .error error)
    (others : Behaviour → Prop) (left right : Node) :
    error.IsAbout others (.binary span op left right) := by
  have onNumbers {apply : Float → Float → Except RuntimeError Value}
      (failed : op.onNumbers first second span apply = .error error)
      (own : ∀ a b, apply a b = .error error → error.IsAbout others (.binary span op left right)) :
      error.IsAbout others (.binary span op left right) := by
    unfold BinaryOp.onNumbers at failed
    split at failed
    · exact own _ _ failed
    · cases failed
      exact .operands
  have byNonzero {apply : Float → Float → Float} {a b : Float}
      (failed : byNonzero apply span a b = .error error) (divides : op = .divide ∨ op = .modulo) :
      error.IsAbout others (.binary span op left right) := by
    unfold BinaryOp.byNonzero at failed
    split at failed <;> cases failed
    exact .divisionByZero divides
  cases op with
  | equal | notEqual => cases failed
  -- two strings are joined without fail; any other operands have to be numbers
  | add =>
    unfold apply at failed
    dsimp only at failed
    split at failed
    · cases failed
    · exact onNumbers failed fun _ _ own => by cases own
  | divide => exact onNumbers failed fun _ _ own => byNonzero own (.inl rfl)
  | modulo => exact onNumbers failed fun _ _ own => byNonzero own (.inr rfl)
  | _ => exact onNumbers failed fun _ _ own => by cases own

/-! Functions of the host -/

/-- A function of the host whose errors stand at the call that it is told of. -/
def Behaviour.ReportsCall (behaviour : Behaviour) : Prop :=
  ∀ arguments span host,
    (behaviour arguments span host).Meets (fun _ _ => True) fun error _ => error.span = span

/-- A function of the host that makes no functions and reports errors about its call alone. -/
structure Behaviour.Answers (others : Behaviour → Prop) (behaviour : Behaviour) : Prop where
  values : behaviour.IsConfined []
  errors : ∀ arguments span host, (behaviour arguments span host).Meets (fun _ _ => True)
    fun error _ => ∀ callee nodes, error.IsAbout others (.call span callee nodes)

theorem Behaviour.Answers.of_reportsCall {others : Behaviour → Prop} {behaviour : Behaviour}
    (other : others behaviour) (confined : behaviour.IsConfined [])
    (reports : behaviour.ReportsCall) : behaviour.Answers others := by
  refine ⟨confined, fun arguments span host => ?_⟩
  have meets := reports arguments span host
  cases outcome : behaviour arguments span host with
  | done value after => trivial
  | failed error after =>
    rw [outcome] at meets
    exact fun callee nodes => .reported other outcome meets
  | cutOff => trivial

namespace Builtin

variable (others : Behaviour → Prop) (arguments : List Value) (span : Span) (host : Host)

abbrev Reports (error : RuntimeError) (_ : Host) : Prop :=
  ∀ callee nodes, error.IsAbout others (.call span callee nodes)

theorem reports_write (text failure : String) :
    (Host.write text failure span host).Meets (fun _ _ => True) (Reports others span) := by
  unfold Host.write
  split
  · trivial
  · exact fun _ _ => .native

theorem reports_print :
    (print arguments span host).Meets (fun _ _ => True) (Reports others span) := by
  refine Action.meets_bind (reports_write others span host _ _) fun _ host _ => ?_
  exact Action.meets_bind (reports_write others span host _ _) fun _ host _ => trivial

theorem reports_len :
    (len arguments span host).Meets (fun _ _ => True) (Reports others span) := by
  unfold len
  cases first arguments with
  | string text => trivial
  | _ => exact fun _ _ => .argument

theorem reports_ofNumber {name : String} {apply : Float → Span → Action RuntimeError Host Value}
    (own : ∀ value, (apply value span host).Meets (fun _ _ => True) (Reports others span)) :
    (ofNumber name apply arguments span host).Meets (fun _ _ => True) (Reports others span) := by
  unfold ofNumber
  cases first arguments with
  | number value => exact own value
  | _ => exact fun _ _ => .argument

theorem reports_abs :
    (abs arguments span host).Meets (fun _ _ => True) (Reports others span) :=
  reports_ofNumber others arguments span host fun _ => trivial

theorem reports_floor :
    (floor arguments span host).Meets (fun _ _ => True) (Reports others span) :=
  reports_ofNumber others arguments span host fun _ => trivial

theorem reports_sqrt :
    (sqrt arguments span host).Meets (fun _ _ => True) (Reports others span) := by
  refine reports_ofNumber others arguments span host fun value => ?_
  split
  · exact fun _ _ => .native
  · trivial

theorem reports_clock :
    (clock arguments span host).Meets (fun _ _ => True) (Reports others span) := by
  rw [clock, Action.bind_apply, Host.readClock]
  cases host.clock.reading? host.asked with
  | some seconds => trivial
  | none => exact fun _ _ => .native

theorem answers_all : ∀ entry ∈ all, Behaviour.Answers others entry.2.2 := by
  have answers {behaviour : Behaviour} (plain : behaviour.IsPlain)
      (errors : ∀ arguments span host,
        (behaviour arguments span host).Meets (fun _ _ => True) (Reports others span)) :
      behaviour.Answers others := ⟨plain.isConfined [], errors⟩
  intro entry member
  have plain := isPlain_all entry member
  simp only [all, List.mem_cons, List.not_mem_nil, or_false] at member
  rcases member with rfl | rfl | rfl | rfl | rfl | rfl | rfl | rfl
  · exact answers plain (reports_print others)
  · exact answers plain fun _ _ _ => trivial
  · exact answers plain (reports_len others)
  · exact answers plain fun _ _ _ => trivial
  · exact answers plain (reports_abs others)
  · exact answers plain (reports_floor others)
  · exact answers plain (reports_sqrt others)
  · exact answers plain (reports_clock others)

end Builtin

end Scriptlet
