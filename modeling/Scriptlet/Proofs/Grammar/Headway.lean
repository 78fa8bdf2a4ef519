import Mathlib.Logic.Relation
import Scriptlet.Proofs.Grammar.Onward

/-! Parts of the grammar that are read on the way of others, and the tokens given away there. -/

set_option autoImplicit false

namespace Scriptlet

namespace Parse

/-- A script, followed from a reader, comes to another one, where the rest of it is to be done. -/
inductive Script.ComesTo {α : Type} : Script α → Reader → Script α → Reader → Prop where
  | here {script : Script α} {reader : Reader} : ComesTo script reader script reader
  | look {next : Reader → Script α} {rest : Script α} {reader there : Reader} :
    ComesTo (next reader) reader rest there → ComesTo (.look next) reader rest there
  | advance {next : Token → Script α} {rest : Script α} {token : Token}
    {reader middle there : Reader} :
    Parse.advance reader = .done token middle → ComesTo (next token) middle rest there →
      ComesTo (.advance next) reader rest there
  | part {loops : Loops} {inner : Part} {next : inner.Result → Script α} {rest : Script α}
    {fuel : Nat} {result : inner.Result} {reader middle there : Reader} :
    loops.around (inner.run fuel) reader = .done result middle →
      ComesTo (next result) middle rest there → ComesTo (.part loops inner next) reader rest there

theorem Script.ComesTo.goes {α : Type} {limit bound : Nat} {script rest : Script α}
    {reader there : Reader} (comes : script.ComesTo reader rest there)
    (goes : script.Goes limit bound reader) :
    rest.Goes limit bound there ∧ ∃ tokens, Reader.Gives tokens reader there := by
  induction comes with
  | here => exact ⟨goes, [], .refl _⟩
  | look _ ih => exact ih goes
  | @advance next rest token reader middle there given _ ih =>
    have first := advances_advance goes.1
    rw [Advances, given] at first
    obtain ⟨⟨tokens, gives⟩, less, _⟩ := first
    obtain ⟨goesThere, more, further⟩ := ih (goes.2 token middle less)
    exact ⟨goesThere, tokens ++ more, gives.trans further⟩
  | @part loops inner next rest fuel result reader middle there given _ ih =>
    obtain ⟨begins, _, goesOn⟩ := goes
    have first := Loops.advances_part loops fuel begins
    rw [Advances, given] at first
    obtain ⟨⟨tokens, gives⟩, less, _⟩ := first
    obtain ⟨goesThere, more, further⟩ := ih (goesOn result middle less)
    exact ⟨goesThere, tokens ++ more, gives.trans further⟩

structure Call where
  part : Part
  reader : Reader

namespace Call

/-- What is read first of all: an expression, a statement or a whole program. -/
def IsEntry (call : Call) : Prop :=
  call.part = .expression ∨ call.part = .statement ∨ call.part = .sequence false

def run (fuel : Nat) (call : Call) : Outcome SyntaxError Reader call.part.Result :=
  call.part.run fuel call.reader

def cost (call : Call) : Nat := call.part.cost call.reader

/-- On the way of one call, not within a call it makes, another one is made. -/
def Makes (caller callee : Call) : Prop :=
  ∃ loops next there,
    caller.part.script.ComesTo caller.reader (.part loops callee.part next) there ∧
      callee.reader = loops.enter there

/-- On the way of a call, not within a call it makes, the token in hand is given away. -/
def GivesAway (call : Call) (there : Reader) : Prop :=
  ∃ next, call.part.script.ComesTo call.reader (.advance next) there

/-- A call is made on the way of another one. -/
def OnTheWay : Call → Call → Prop := Relation.ReflTransGen Makes

def Begins (call : Call) : Prop := call.part.Begins call.reader

theorem IsEntry.begins {call : Call} (entry : call.IsEntry) : call.Begins := by
  obtain ⟨part, reader⟩ := call
  rcases entry with same | same | same <;> cases same <;> trivial

theorem Makes.step {caller callee : Call} (makes : caller.Makes callee) (begins : caller.Begins) :
    callee.Begins ∧ callee.cost < caller.cost ∧
      ∃ tokens, Reader.Gives tokens caller.reader callee.reader := by
  obtain ⟨part, reader⟩ := callee
  obtain ⟨loops, next, there, comes, rfl⟩ := makes
  obtain ⟨⟨begun, less, _⟩, tokens, gives⟩ := comes.goes (Part.goes begins)
  refine ⟨Loops.begins_enter.mpr begun, ?_, tokens, ?_⟩
  · exact Loops.cost_enter.trans_lt less
  · exact gives.of_same_tokens rfl rfl (loops.current_enter there) (loops.rest_enter there)

theorem OnTheWay.step {root call : Call} (onTheWay : root.OnTheWay call) (begins : root.Begins) :
    call.Begins ∧ ∃ tokens, Reader.Gives tokens root.reader call.reader := by
  induction onTheWay with
  | refl => exact ⟨begins, [], .refl _⟩
  | tail _ makes ih =>
    obtain ⟨begun, tokens, gives⟩ := ih
    obtain ⟨begunCallee, _, more, further⟩ := makes.step begun
    exact ⟨begunCallee, tokens ++ more, gives.trans further⟩

theorem GivesAway.step {call : Call} {there : Reader} (givesAway : call.GivesAway there)
    (begins : call.Begins) :
    there.current.kind ≠ .endOfInput ∧ ∃ tokens, Reader.Gives tokens call.reader there := by
  obtain ⟨next, comes⟩ := givesAway
  obtain ⟨⟨goesOn, _⟩, gives⟩ := comes.goes (Part.goes begins)
  exact ⟨goesOn, gives⟩

theorem meets_run {call : Call} (begins : call.Begins) (fuel : Nat) :
    (call.run fuel).Meets
      (fun _ after => ∃ tokens, Reader.Gives tokens call.reader after ∧
        (call.part.slack = 0 → tokens ≠ []))
      fun _ after => call.reader.Reaches after := by
  refine (Part.advances fuel begins).mono ?_ fun _ _ => And.left
  rintro _ after ⟨⟨tokens, gives⟩, less, _⟩
  refine ⟨tokens, gives, fun none empty => ?_⟩
  rw [none, Nat.add_zero] at less
  rw [empty] at gives
  cases gives with
  | nil current rest => exact absurd (Reader.left_eq_of_same current rest) (Nat.ne_of_lt less)

end Call

end Parse

namespace Reader

open Parse

/-- A reader that holds what a source still has does not give its last token away for nothing. -/
theorem Whole.rest_ne {reader : Reader} (whole : reader.Whole)
    (goesOn : reader.current.kind ≠ .endOfInput) : reader.rest ≠ .exhausted := by
  rcases whole with ⟨offset, ending⟩ | ⟨_, rest⟩
  · rw [ending] at goesOn
    exact absurd rfl goesOn
  · intro exhausted
    rw [exhausted] at rest
    exact rest

theorem gives_of_done {call : Call} {fuel : Nat} {value : call.part.Result} {after : Reader}
    (begins : call.Begins) (nonempty : call.part.slack = 0)
    (found : call.run fuel = .done value after) :
    ∃ first rest, Gives (first :: rest) call.reader after ∧
      ∀ token ∈ first :: rest, token.kind ≠ .endOfInput := by
  have meets := Call.meets_run begins fuel
  rw [found] at meets
  obtain ⟨tokens, gives, never⟩ := meets
  obtain ⟨first, rest, rfl⟩ := List.exists_cons_of_ne_nil (never nonempty)
  exact ⟨first, rest, gives, gives.kind_ne⟩

/-- Reading makes headway and comes to an end. -/
theorem reading_makes_headway :
    (∀ (part : Part) (fuel : Nat), part.run (fuel + 1) = part.script.run fuel) ∧
    (∀ (reader after : Reader) (node : Node),
      reader.expression = (.ok node, after) ∨ reader.statement = (.ok node, after) →
      ∃ first rest, Gives (first :: rest) reader after ∧
        ∀ token ∈ first :: rest, token.kind ≠ .endOfInput) ∧
    (∀ root call : Call, root.IsEntry → root.OnTheWay call →
      (∀ there, call.GivesAway there → there.current.kind ≠ .endOfInput) ∧
      (∀ callee, call.Makes callee → callee.cost < call.cost) ∧
      ∀ fuel,
        (call.run fuel).Meets
          (fun _ after => ∃ tokens, Gives tokens call.reader after ∧
            (call.part.slack = 0 → tokens ≠ []))
          (fun _ after => call.reader.Reaches after) ∧
        (call.cost < fuel → call.run fuel ≠ .cutOff)) ∧
    ∀ source reader, Reader.start source = .ok reader →
      ∀ call, Call.OnTheWay ⟨.sequence false, reader⟩ call → ∀ there, call.GivesAway there →
        there.current.kind ≠ .endOfInput ∧ there.rest ≠ .exhausted := by
  refine ⟨Part.run_succ, ?_, ?_, ?_⟩
  -- the steps of `Reader.fuel` suffice, so a success is one of the part itself
  · rintro reader after node (found | found)
    · have begins : Call.Begins ⟨.expression, reader⟩ := trivial
      have done : Call.run reader.fuel ⟨.expression, reader⟩ = .done node after :=
        (Outcome.result_eq_ok_iff reader.expression_ends).mp found
      exact gives_of_done begins rfl done
    · have begins : Call.Begins ⟨.statement, reader⟩ := trivial
      have done : Call.run reader.fuel ⟨.statement, reader⟩ = .done node after :=
        (Outcome.result_eq_ok_iff reader.statement_ends).mp found
      exact gives_of_done begins rfl done
  -- what holds where the first call begins holds wherever a call is made on its way
  · intro root call entry onTheWay
    have begins := (onTheWay.step entry.begins).1
    refine ⟨fun there givesAway => (givesAway.step begins).1, ?_, fun fuel => ⟨?_, ?_⟩⟩
    · exact fun callee makes => (makes.step begins).2.1
    · exact Call.meets_run begins fuel
    · exact fun enough => (Part.ends begins enough).ne_cutOff
  · intro source reader started call onTheWay there givesAway
    obtain ⟨begins, tokens, gives⟩ := onTheWay.step trivial
    obtain ⟨goesOn, more, further⟩ := givesAway.step begins
    exact ⟨goesOn, ((gives.trans further).whole (whole_start started).1).1.rest_ne goesOn⟩

end Reader

end Scriptlet
