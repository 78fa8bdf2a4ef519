import Mathlib.Logic.Relation
import Scriptlet.Grammar.Program
import Scriptlet.Proofs.Grammar.Giving
import Scriptlet.Proofs.Grammar.Script

/-! Reading goes onward: nothing is read a second time, and what is called on the way has less left
to do than its caller.
-/

set_option autoImplicit false

namespace Scriptlet

namespace Reader

/-- Tokens are given away up to where a reader stops. A fault after the last of them is gone then,
or not yet met. -/
def Reaches (reader after : Reader) : Prop :=
  ∃ tokens middle, Gives tokens reader middle ∧ after.current = middle.current ∧
    (after.rest = middle.rest ∨
      ∃ fault, middle.rest = .fault fault ∧ after.rest = .exhausted)

namespace Gives

variable {tokens : List Token} {reader after : Reader}

theorem reaches (gives : Gives tokens reader after) : reader.Reaches after :=
  ⟨tokens, after, gives, rfl, .inl rfl⟩

theorem kind_ne (gives : Gives tokens reader after) :
    ∀ token ∈ tokens, token.kind ≠ .endOfInput := by
  induction gives with
  | nil => simp
  | cons goesOn given _ ih =>
    rw [List.forall_mem_cons, Parse.eq_current_of_advance given]
    exact ⟨goesOn, ih⟩

theorem of_same_tokens {first last : Reader} (gives : Gives tokens reader after)
    (current : first.current = reader.current) (rest : first.rest = reader.rest)
    (currentLast : last.current = after.current) (restLast : last.rest = after.rest) :
    Gives tokens first last := by
  have stays : Gives [] after last := .nil currentLast restLast
  have moved := (gives.of_same current rest).trans stays
  rwa [List.append_nil] at moved

end Gives

theorem Reaches.after_gives {tokens : List Token} {reader middle after : Reader}
    (gives : Gives tokens reader middle) (reaches : middle.Reaches after) :
    reader.Reaches after := by
  obtain ⟨more, last, further, same⟩ := reaches
  exact ⟨tokens ++ more, last, gives.trans further, same⟩

theorem Reaches.of_same_tokens {reader after first last : Reader} (reaches : reader.Reaches after)
    (current : first.current = reader.current) (rest : first.rest = reader.rest)
    (currentLast : last.current = after.current) (restLast : last.rest = after.rest) :
    first.Reaches last := by
  obtain ⟨tokens, middle, gives, same, goesOn⟩ := reaches
  refine ⟨tokens, middle, gives.of_same current rest, currentLast.trans same, ?_⟩
  rwa [restLast]

theorem left_eq_of_same {reader other : Reader} (current : other.current = reader.current)
    (rest : other.rest = reader.rest) : other.left = reader.left := by
  rw [left, left, current, rest]

end Reader

namespace Parse

namespace Part

/-- Where a part is begun: those that a word opens, at that word. -/
def Begins (part : Part) (reader : Reader) : Prop :=
  match part with
  | definition => reader.current.kind = .keyword .fnWord
  | branch => reader.current.kind = .keyword .ifWord
  | whileLoop => reader.current.kind = .keyword .whileWord
  | forLoop => reader.current.kind = .keyword .forWord
  | _ => True

/-- One for the parts that can be empty. -/
def slack : Part → Nat
  | climb _ _ | calls _ | arguments | sequence _ => 1
  | _ => 0

/-- Where no token is given away in between, a part calls parts of lower rank only. -/
def rank : Part → Nat
  | climb _ _ | calls _ | primary | someParameters | block => 1
  | call => 2
  | unary => 3
  | operation _ => 4
  | expression | definition | branch | whileLoop | forLoop => 5
  | someArguments | statement => 6
  | arguments | sequence _ => 7

def cost (part : Part) (reader : Reader) : Nat := 8 * reader.left + part.rank

end Part

namespace Loops

theorem current_enter (loops : Loops) (reader : Reader) :
    (loops.enter reader).current = reader.current := by
  cases loops <;> rfl

theorem rest_enter (loops : Loops) (reader : Reader) : (loops.enter reader).rest = reader.rest := by
  cases loops <;> rfl

end Loops

theorem ne_endOfInput_of_sees {reader : Reader} {symbol : Mark}
    (found : (reader.current.kind == .mark symbol) = true) :
    reader.current.kind ≠ .endOfInput := by
  rw [beq_iff_eq.mp found]
  rintro ⟨⟩

namespace Script

/-- A script that gives no end of input away, calls parts where they begin and at less than a limit,
and at last leaves fewer tokens than a bound. -/
def Goes {α : Type} (limit bound : Nat) : Script α → Reader → Prop
  | done _, reader => reader.left < bound
  | failed _, _ => True
  | look next, reader => (next reader).Goes limit bound reader
  | advance next, reader => reader.current.kind ≠ .endOfInput ∧
    ∀ token after, after.left < reader.left → (next token).Goes limit bound after
  | part _ inner next, reader => inner.Begins reader ∧ inner.cost reader < limit ∧
    ∀ result after, after.left < reader.left + inner.slack → (next result).Goes limit bound after

variable {α : Type} {limit bound : Nat} {reader : Reader}

theorem goes_expect {symbol : Mark} {expected : Expectation} {next : Token → Script α}
    (goesOn : ∀ token after, after.left < reader.left → (next token).Goes limit bound after) :
    (expect symbol expected next).Goes limit bound reader := by
  simp only [expect, Goes]
  split
  · next found =>
    exact ⟨ne_endOfInput_of_sees found, goesOn⟩
  · trivial

theorem goes_identifier {next : String → Script α}
    (goesOn : ∀ name after, after.left < reader.left → (next name).Goes limit bound after) :
    (identifier next).Goes limit bound reader := by
  simp only [identifier, Goes]
  split
  · next name found =>
    refine ⟨?_, fun _ => goesOn name⟩
    rw [found]
    rintro ⟨⟩
  · trivial

theorem goes_expression {next : Node → Script α} (enough : 8 * reader.left + 5 < limit)
    (goesOn : ∀ node after, after.left < reader.left → (next node).Goes limit bound after) :
    (expression next).Goes limit bound reader :=
  ⟨trivial, enough, goesOn⟩

theorem goes_assignment {target value : Node} (less : reader.left < bound) :
    (assignment target value).Goes limit bound reader := by
  unfold assignment
  split
  · exact less
  · trivial

theorem goes_declaration {next : Node → Script α} (enough : 8 * reader.left < limit)
    (goesOn : reader.current.kind ≠ .endOfInput)
    (later : ∀ node after, after.left < reader.left → (next node).Goes limit bound after) :
    (declaration next).Goes limit bound reader := by
  refine ⟨goesOn, fun _ after _ => goes_identifier fun _ after _ => goes_expect fun _ after _ => ?_⟩
  refine goes_expression (by omega) fun _ after _ => goes_expect fun _ after _ => ?_
  exact later _ after (by omega)

theorem goes_parameters {next : List String → Script α} (enough : 8 * reader.left + 1 < limit)
    (goesOn : ∀ names after, after.left < reader.left + 1 → (next names).Goes limit bound after) :
    (parameters next).Goes limit bound reader := by
  simp only [parameters, Goes]
  split
  · exact goesOn _ reader (Nat.lt_succ_self _)
  · exact ⟨trivial, enough, fun names after less => goesOn names after (Nat.lt_succ_of_lt less)⟩

theorem goes_condition {word : Keyword} {next : Node → Script α} (enough : 8 * reader.left < limit)
    (goesOn : ∀ node after, after.left < reader.left → (next node).Goes limit bound after) :
    (condition word next).Goes limit bound reader := by
  refine goes_expect fun _ after _ => goes_expression (by omega) fun _ after _ => ?_
  exact goes_expect fun _ after _ => goesOn _ after (by omega)

theorem goes_optional {symbol : Mark} {next : Option Node → Script α}
    (enough : 8 * reader.left + 5 < limit)
    (goesOn : ∀ node after, after.left < reader.left + 1 → (next node).Goes limit bound after) :
    (optional symbol next).Goes limit bound reader := by
  simp only [optional, Goes]
  split
  · exact goesOn _ reader (Nat.lt_succ_self _)
  · exact goes_expression enough fun _ after less => goesOn _ after (Nat.lt_succ_of_lt less)

theorem goes_returning (enough : 8 * reader.left < limit) (least : reader.left ≤ bound)
    (goesOn : reader.current.kind ≠ .endOfInput) : returning.Goes limit bound reader := by
  refine ⟨goesOn, fun _ after _ => goes_optional (by omega) fun _ after _ => ?_⟩
  refine goes_expect fun _ after _ => ?_
  show after.left < bound
  omega

theorem goes_loopControl {word : Keyword} {node : Span → Node} (least : reader.left ≤ bound)
    (goesOn : reader.current.kind ≠ .endOfInput) :
    (loopControl word node).Goes limit bound reader := by
  simp only [loopControl, Goes]
  split
  · refine ⟨goesOn, fun _ after _ => goes_expect fun _ after _ => ?_⟩
    show after.left < bound
    omega
  · trivial

theorem goes_expressionStatement (enough : 8 * reader.left + 5 < limit)
    (least : reader.left ≤ bound) : expressionStatement.Goes limit bound reader := by
  refine goes_expression enough fun _ after _ => ?_
  simp only [Goes]
  split
  · show after.left < bound
    omega
  · refine goes_expect fun _ after _ => ?_
    show after.left < bound
    omega

theorem goes_initializer {next : Option Node → Script α} (enough : 8 * reader.left + 5 < limit)
    (goesOn : ∀ node after, after.left < reader.left → (next node).Goes limit bound after) :
    (initializer next).Goes limit bound reader := by
  simp only [initializer, Goes]
  split
  · next found =>
    refine ⟨?_, fun _ => goesOn none⟩
    rw [found]
    rintro ⟨⟩
  · next found =>
    refine goes_declaration (by omega) ?_ fun node => goesOn (some node)
    rw [found]
    rintro ⟨⟩
  · refine goes_expression enough fun _ after _ => goes_expect fun _ after _ => ?_
    exact goesOn _ after (by omega)

theorem goes_loopCondition {next : Node → Script α} (enough : 8 * reader.left + 5 < limit)
    (goesOn : ∀ node after, after.left < reader.left + 1 → (next node).Goes limit bound after) :
    (loopCondition next).Goes limit bound reader := by
  simp only [loopCondition, Goes]
  split
  · exact goesOn _ reader (Nat.lt_succ_self _)
  · exact goes_expression enough fun _ after less => goesOn _ after (Nat.lt_succ_of_lt less)

end Script

def Part.Goes (part : Part) (reader : Reader) : Prop :=
  part.script.Goes (part.cost reader) (reader.left + part.slack) reader

theorem ne_endOfInput_of_keyword {reader : Reader} {word : Keyword}
    (found : reader.current.kind = .keyword word) : reader.current.kind ≠ .endOfInput := by
  rw [found]
  rintro ⟨⟩

section

open Script

variable {reader : Reader}

theorem expression_goes : Part.expression.Goes reader := by
  simp only [Part.Goes, Part.script, Goes, Part.cost, Part.rank, Part.slack, Part.Begins, true_and]
  refine ⟨by omega, fun target after less => ?_⟩
  split
  · next found =>
    refine ⟨ne_endOfInput_of_sees found, fun _ after _ => ?_⟩
    exact goes_expression (by omega) fun _ after _ => goes_assignment (by omega)
  · exact less

theorem climb_goes (least : Nat) (left : Node) : (Part.climb least left).Goes reader := by
  simp only [Part.Goes, Part.script, Goes, Part.cost, Part.rank, Part.slack]
  split
  · exact Nat.lt_succ_self _
  · next found =>
    split
    · exact Nat.lt_succ_self _
    · refine ⟨ne_endOfInput_of_ofKind? found, fun _ after _ => ?_⟩
      simp only [Goes, Part.cost, Part.rank, Part.slack, Part.Begins, true_and]
      exact ⟨by omega, fun _ after _ => ⟨by omega, fun _ after _ => by omega⟩⟩

theorem unary_goes : Part.unary.Goes reader := by
  simp only [Part.Goes, Part.script, Goes, Part.cost, Part.rank, Part.slack]
  split
  · simp only [Goes, Part.cost, Part.rank, Part.slack, Part.Begins, true_and]
    exact ⟨by omega, fun _ _ less => less⟩
  · next found =>
    refine ⟨ne_endOfInput_of_unary? found, fun _ after _ => ?_⟩
    simp only [Goes, Part.cost, Part.rank, Part.slack, Part.Begins, true_and]
    exact ⟨by omega, fun _ after _ => by omega⟩

theorem calls_goes (callee : Node) : (Part.calls callee).Goes reader := by
  simp only [Part.Goes, Part.script, Goes, Part.cost, Part.rank, Part.slack]
  split
  · next found =>
    refine ⟨ne_endOfInput_of_sees found, fun _ after _ => ?_⟩
    simp only [Goes, Part.cost, Part.rank, Part.slack, Part.Begins, true_and]
    refine ⟨by omega, fun _ after _ => goes_expect fun _ after _ => ?_⟩
    simp only [Goes, Part.cost, Part.rank, Part.slack, Part.Begins, true_and]
    exact ⟨by omega, fun _ after _ => by omega⟩
  · exact Nat.lt_succ_self _

theorem arguments_goes : Part.arguments.Goes reader := by
  simp only [Part.Goes, Part.script, Goes, Part.cost, Part.rank, Part.slack]
  split
  · exact Nat.lt_succ_self _
  · simp only [Goes, Part.cost, Part.rank, Part.slack, Part.Begins, true_and]
    exact ⟨by omega, fun _ after _ => by omega⟩

theorem someArguments_goes : Part.someArguments.Goes reader := by
  simp only [Part.Goes, Part.script, Part.cost, Part.rank, Part.slack]
  refine goes_expression (by omega) fun _ after less => ?_
  simp only [Goes]
  split
  · next found =>
    refine ⟨ne_endOfInput_of_sees found, fun _ after _ => ?_⟩
    simp only [Goes, Part.cost, Part.rank, Part.slack, Part.Begins, true_and]
    exact ⟨by omega, fun _ after _ => by omega⟩
  · exact less

theorem primary_goes : Part.primary.Goes reader := by
  simp only [Part.Goes, Part.script, Goes, Part.cost, Part.rank, Part.slack]
  split
  · next found => exact ⟨ne_endOfInput_of_atom? found, fun _ after less => less⟩
  · split
    · next found =>
      refine ⟨by rw [found]; rintro ⟨⟩, fun _ after _ => ?_⟩
      refine goes_expression (by omega) fun _ after _ => goes_expect fun _ after _ => ?_
      simp only [Goes]
      omega
    · trivial

theorem someParameters_goes : Part.someParameters.Goes reader := by
  simp only [Part.Goes, Part.script, Part.cost, Part.rank, Part.slack]
  refine goes_identifier fun _ after less => ?_
  simp only [Goes]
  split
  · next found =>
    refine ⟨ne_endOfInput_of_sees found, fun _ after _ => ?_⟩
    simp only [Goes, Part.cost, Part.rank, Part.slack, Part.Begins, true_and]
    exact ⟨by omega, fun _ after _ => by omega⟩
  · exact less

theorem statement_goes : Part.statement.Goes reader := by
  simp only [Part.Goes, Part.script, Goes, Part.cost, Part.rank, Part.slack]
  split
  · next found =>
    exact goes_declaration (by omega) (ne_endOfInput_of_keyword found) fun _ _ less => less
  · next found => exact ⟨found, Nat.lt_succ_self _, fun _ _ less => less⟩
  · next found => exact ⟨found, Nat.lt_succ_self _, fun _ _ less => less⟩
  · next found => exact ⟨found, Nat.lt_succ_self _, fun _ _ less => less⟩
  · next found => exact ⟨found, Nat.lt_succ_self _, fun _ _ less => less⟩
  · next found =>
    exact goes_returning (by omega) (Nat.le_refl _) (ne_endOfInput_of_keyword found)
  · next found => exact goes_loopControl (Nat.le_refl _) (ne_endOfInput_of_keyword found)
  · next found => exact goes_loopControl (Nat.le_refl _) (ne_endOfInput_of_keyword found)
  · simp only [Goes, Part.cost, Part.rank, Part.slack, Part.Begins, true_and]
    exact ⟨by omega, fun _ _ less => less⟩
  · exact goes_expressionStatement (by omega) (Nat.le_refl _)

theorem definition_goes (word : reader.current.kind = .keyword .fnWord) :
    Part.definition.Goes reader := by
  simp only [Part.Goes, Part.script, Goes, Part.cost, Part.rank, Part.slack]
  refine ⟨ne_endOfInput_of_keyword word, fun _ after _ => goes_identifier fun _ after _ => ?_⟩
  refine goes_expect fun _ after _ => goes_parameters (by omega) fun _ after _ => ?_
  refine goes_expect fun _ after _ => ?_
  simp only [Goes, Part.cost, Part.rank, Part.slack, Part.Begins, true_and]
  exact ⟨by omega, fun _ after _ => by omega⟩

theorem block_goes : Part.block.Goes reader := by
  simp only [Part.Goes, Part.script, Part.cost, Part.rank, Part.slack]
  refine goes_expect fun _ after _ => ?_
  simp only [Goes, Part.cost, Part.rank, Part.slack, Part.Begins, true_and]
  refine ⟨by omega, fun _ after _ => goes_expect fun _ after _ => ?_⟩
  simp only [Goes]
  omega

theorem sequence_goes (inBraces : Bool) : (Part.sequence inBraces).Goes reader := by
  simp only [Part.Goes, Part.script, Goes, Part.cost, Part.rank, Part.slack]
  split
  · exact Nat.lt_succ_self _
  · simp only [Goes, Part.cost, Part.rank, Part.slack, Part.Begins, true_and]
    exact ⟨by omega, fun _ after _ => ⟨by omega, fun _ after _ => by omega⟩⟩

theorem branch_goes (word : reader.current.kind = .keyword .ifWord) : Part.branch.Goes reader := by
  simp only [Part.Goes, Part.script, Goes, Part.cost, Part.rank, Part.slack]
  refine ⟨ne_endOfInput_of_keyword word, fun _ after _ =>
    goes_condition (by omega) fun _ after _ => ?_⟩
  simp only [Goes, Part.cost, Part.rank, Part.slack, Part.Begins, true_and]
  refine ⟨by omega, fun _ after _ => ?_⟩
  split
  · next found =>
    refine ⟨ne_endOfInput_of_keyword (beq_iff_eq.mp found), fun _ after _ => ?_⟩
    simp only [Goes, Part.cost, Part.rank, Part.slack, Part.Begins, true_and]
    exact ⟨by omega, fun _ after _ => by omega⟩
  · simp only [Goes]
    omega

theorem whileLoop_goes (word : reader.current.kind = .keyword .whileWord) :
    Part.whileLoop.Goes reader := by
  simp only [Part.Goes, Part.script, Goes, Part.cost, Part.rank, Part.slack]
  refine ⟨ne_endOfInput_of_keyword word, fun _ after _ =>
    goes_condition (by omega) fun _ after _ => ?_⟩
  simp only [Goes, Part.cost, Part.rank, Part.slack, Part.Begins, true_and]
  exact ⟨by omega, fun _ after _ => by omega⟩

theorem forLoop_goes (word : reader.current.kind = .keyword .forWord) :
    Part.forLoop.Goes reader := by
  simp only [Part.Goes, Part.script, Goes, Part.cost, Part.rank, Part.slack]
  refine ⟨ne_endOfInput_of_keyword word, fun _ after _ => goes_expect fun _ after _ => ?_⟩
  refine goes_initializer (by omega) fun _ after _ => ?_
  refine goes_loopCondition (by omega) fun _ after _ => goes_expect fun _ after _ => ?_
  refine goes_optional (by omega) fun _ after _ => goes_expect fun _ after _ => ?_
  simp only [Goes, Part.cost, Part.rank, Part.slack, Part.Begins, true_and]
  exact ⟨by omega, fun _ after _ => by omega⟩

end

theorem Part.goes {part : Part} {reader : Reader} (begins : part.Begins reader) :
    part.Goes reader := by
  cases part with
  | expression => exact expression_goes
  | operation least =>
    simp only [Goes, script, Script.Goes, cost, rank, slack, Begins, true_and]
    exact ⟨by omega, fun left after _ => ⟨by omega, fun _ after _ => by omega⟩⟩
  | climb least left => exact climb_goes least left
  | unary => exact unary_goes
  | call =>
    simp only [Goes, script, Script.Goes, cost, rank, slack, Begins, true_and]
    exact ⟨by omega, fun _ after _ => ⟨by omega, fun _ after _ => by omega⟩⟩
  | calls callee => exact calls_goes callee
  | arguments => exact arguments_goes
  | someArguments => exact someArguments_goes
  | primary => exact primary_goes
  | someParameters => exact someParameters_goes
  | statement => exact statement_goes
  | definition => exact definition_goes begins
  | block => exact block_goes
  | sequence inBraces => exact sequence_goes inBraces
  | branch => exact branch_goes begins
  | whileLoop => exact whileLoop_goes begins
  | forLoop => exact forLoop_goes begins

/-! What a part that has begun comes to -/

/-- Tokens before the end of input are given away, so that fewer than a bound are left, and the
loops are as they were. After an error as well, but for the bound. -/
def Advances {α : Type} (bound : Nat) (part : Parse α) (reader : Reader) : Prop :=
  (part reader).Meets
    (fun _ after => (∃ tokens, Reader.Gives tokens reader after) ∧ after.left < bound ∧
      after.loops = reader.loops)
    fun _ after => reader.Reaches after ∧ after.loops = reader.loops

theorem advances_advance {reader : Reader} (goesOn : reader.current.kind ≠ .endOfInput) :
    Advances reader.left advance reader := by
  have ends := ends_advance_of_ne goesOn
  unfold Ends at ends
  unfold Advances
  cases given : advance reader with
  | done token after =>
    rw [given] at ends
    exact ⟨⟨_, .single goesOn given⟩, ends, loops_of_advance given⟩
  | failed error after =>
    unfold advance at given
    rw [if_neg goesOn] at given
    split at given <;> cases given
    next fault => exact ⟨⟨[], reader, .refl reader, rfl, .inr ⟨_, fault, rfl⟩⟩, rfl⟩
  | cutOff => trivial

theorem Advances.bind {α β : Type} {middle bound : Nat} {first : Parse α} {next : α → Parse β}
    {reader : Reader} (advances : Advances middle first reader)
    (goesOn : ∀ value after, after.left < middle → Advances bound (next value) after) :
    Advances bound (first >>= next) reader := by
  refine Action.meets_bind advances ?_
  rintro value reached ⟨⟨tokens, gives⟩, less, same⟩
  refine (goesOn value reached less).mono ?_ ?_
  · rintro _ after ⟨⟨more, further⟩, bounded, sameAfter⟩
    exact ⟨⟨tokens ++ more, gives.trans further⟩, bounded, sameAfter.trans same⟩
  · rintro _ after ⟨reaches, sameAfter⟩
    exact ⟨reaches.after_gives gives, sameAfter.trans same⟩

namespace Loops

variable {α : Type} {loops : Loops} {inner : Parse α} {reader : Reader}

theorem advances_around {bound : Nat} (advances : Advances bound inner (loops.enter reader)) :
    Advances bound (loops.around inner) reader := by
  cases loops with
  | same => exact advances
  | oneMore =>
    refine Action.meets_around (advances.mono ?_ ?_)
    · rintro _ after ⟨⟨tokens, gives⟩, less, same⟩
      refine ⟨⟨tokens, gives.of_same_tokens rfl rfl rfl rfl⟩, less, ?_⟩
      rw [same]
      rfl
    · rintro _ after ⟨reaches, same⟩
      refine ⟨reaches.of_same_tokens rfl rfl rfl rfl, ?_⟩
      rw [same]
      rfl
  | none =>
    refine Action.meets_around (advances.mono ?_ ?_)
    · rintro _ after ⟨⟨tokens, gives⟩, less, _⟩
      exact ⟨⟨tokens, gives.of_same_tokens rfl rfl rfl rfl⟩, less, rfl⟩
    · rintro _ after ⟨reaches, _⟩
      exact ⟨reaches.of_same_tokens rfl rfl rfl rfl, rfl⟩

theorem ends_around {bound : Nat} (ends : Ends bound inner (loops.enter reader)) :
    Ends bound (loops.around inner) reader := by
  cases loops with
  | same => exact ends
  | oneMore | none => exact Parse.ends_around (fun reader => left_loops reader _) ends

theorem begins_enter {part : Part} : part.Begins (loops.enter reader) ↔ part.Begins reader := by
  cases part <;> simp only [Part.Begins, current_enter]

theorem left_enter : (loops.enter reader).left = reader.left :=
  Reader.left_eq_of_same (loops.current_enter reader) (loops.rest_enter reader)

theorem cost_enter {part : Part} : part.cost (loops.enter reader) = part.cost reader := by
  rw [Part.cost, left_enter, Part.cost]

end Loops

theorem Script.Goes.advances {α : Type} {limit bound fuel : Nat} {script : Script α}
    {reader : Reader} (goes : script.Goes limit bound reader)
    (parts : ∀ (part : Part) (reader : Reader), part.Begins reader →
      Advances (reader.left + part.slack) (part.run fuel) reader) :
    Advances bound (script.run fuel) reader := by
  induction script generalizing reader with
  | done value => exact ⟨⟨[], .refl reader⟩, goes, rfl⟩
  | failed error => exact ⟨(Reader.Gives.refl reader).reaches, rfl⟩
  | look next ih => exact ih reader goes
  | advance next ih =>
    exact (advances_advance goes.1).bind fun token after less => ih token (goes.2 token after less)
  | part loops inner next ih =>
    obtain ⟨begins, _, goesOn⟩ := goes
    have inside := parts inner (loops.enter reader) (Loops.begins_enter.mpr begins)
    rw [Loops.left_enter] at inside
    exact (Loops.advances_around inside).bind fun result after less =>
      ih result (goesOn result after less)

theorem Part.advances (fuel : Nat) {part : Part} {reader : Reader} (begins : part.Begins reader) :
    Advances (reader.left + part.slack) (part.run fuel) reader := by
  induction fuel generalizing part reader with
  | zero =>
    rw [run_zero]
    trivial
  | succ fuel ih =>
    rw [run_succ]
    exact (goes begins).advances fun _ _ => ih

theorem Loops.advances_part (loops : Loops) (fuel : Nat) {part : Part} {reader : Reader}
    (begins : part.Begins reader) :
    Advances (reader.left + part.slack) (loops.around (part.run fuel)) reader := by
  have begun : part.Begins (loops.enter reader) := begins_enter.mpr begins
  have inside := Part.advances fuel begun
  rw [left_enter] at inside
  exact advances_around inside

theorem Script.Goes.ends {α : Type} {limit bound fuel : Nat} {script : Script α}
    {reader : Reader} (goes : script.Goes limit bound reader)
    (parts : ∀ (part : Part) (reader : Reader), part.Begins reader → part.cost reader < limit →
      Ends (reader.left + part.slack) (part.run fuel) reader) :
    Ends bound (script.run fuel) reader := by
  induction script generalizing reader with
  | done value => exact goes
  | failed error => trivial
  | look next ih => exact ih reader goes
  | advance next ih =>
    exact (ends_advance_of_ne goes.1).bind fun token after less =>
      ih token (goes.2 token after less)
  | part loops inner next ih =>
    obtain ⟨begins, less, goesOn⟩ := goes
    have inside := parts inner (loops.enter reader) (Loops.begins_enter.mpr begins)
      (Loops.cost_enter.trans_lt less)
    rw [Loops.left_enter] at inside
    exact (Loops.ends_around inside).bind fun result after less =>
      ih result (goesOn result after less)

/-- With more steps than its cost, a part is not cut off: those it calls cost less. -/
theorem Part.ends {fuel : Nat} {part : Part} {reader : Reader} (begins : part.Begins reader)
    (enough : part.cost reader < fuel) :
    Ends (reader.left + part.slack) (part.run fuel) reader := by
  induction fuel generalizing part reader with
  | zero => exact absurd enough (Nat.not_lt_zero _)
  | succ fuel ih =>
    rw [run_succ]
    exact (goes begins).ends fun inner there begun less => ih begun (by omega)

end Parse

end Scriptlet
