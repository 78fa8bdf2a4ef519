import Scriptlet.Editing.Highlight
import Scriptlet.Proofs.Editing.Pairing

/-! The colours of a line beside what the bracket scan finds in it.

Both keep track of strings, but only the scan knows of comments. So the colours are those of the scan
up to the first quote in a comment, where a string starts for them and none does for the scan.
-/

set_option autoImplicit false

namespace Scriptlet

namespace Brackets.Visit

/-- The colour that goes with what a scan finds at a character. -/
def colour (visit : Visit) (record : Brackets) (cursor : Nat) : Option Highlight.Colour :=
  if visit.isQuoted then some .green
  else if visit.offset ∈ record.unmatched then some .boldRed
  else if ∃ pair ∈ Highlight.activePair? record cursor,
      visit.offset = pair.1 ∨ visit.offset = pair.2 then some .boldBlue
  else none

def IsQuoteInComment (visit : Visit) : Prop := visit.before.mode = .comment ∧ visit.char = '"'

instance (visit : Visit) : Decidable visit.IsQuoteInComment := instDecidableAnd

theorem IsQuoteInComment.colour_ne_green {visit : Visit} (misleads : visit.IsQuoteInComment)
    (record : Brackets) (cursor : Nat) : visit.colour record cursor ≠ some .green := by
  have noString : visit.isQuoted = false := by simp [isQuoted, inString, misleads.1]
  rw [colour, noString, if_neg Bool.false_ne_true]
  split
  · simp
  · split <;> simp

end Brackets.Visit

namespace Highlight

open Brackets (Visit inString)

/-- Where the colouring is when it agrees with a scan on what is a string. -/
def placeOf : ScanMode → Place
  | .code | .comment => .outside
  | .string => .inside
  | .escape => .escaped

theorem plainColour_eq (record : Brackets) (cursor offset : Nat) :
    plainColour record (activePair? record cursor) offset =
      if offset ∈ record.unmatched then some .boldRed
      else if ∃ pair ∈ activePair? record cursor, offset = pair.1 ∨ offset = pair.2 then
        some .boldBlue
      else none := by
  unfold plainColour
  cases activePair? record cursor <;> simp

section

variable {brackets : Brackets} {offset : Nat} {c : Char}
  (told : ¬ (Visit.mk offset c brackets).IsQuoteInComment) (record : Brackets)

include told

theorem step_place (active : Option (Nat × Nat)) (next : Option Char) :
    (step record active (placeOf brackets.mode) offset c).2 =
      placeOf (brackets.step offset c next).mode := by
  cases mode : brackets.mode with
  | code =>
    rw [Brackets.mode_step_code mode]
    by_cases quote : c = '"'
    · simp [step, placeOf, quote]
    · by_cases slashes : (c = '/' && next == some '/') = true <;>
        simp [step, placeOf, quote, slashes]
  | string =>
    by_cases backslash : c = '\\'
    · simp [step, placeOf, Brackets.step, mode, backslash]
    · by_cases quote : c = '"' <;>
        simp [step, placeOf, Brackets.step, mode, backslash, quote]
  | escape => simp only [step, placeOf, Brackets.step, mode]
  | comment =>
    have noQuote : c ≠ '"' := fun quote => told ⟨mode, quote⟩
    by_cases feed : c = '\n' <;> simp [step, placeOf, Brackets.step, mode, noQuote, feed]

theorem step_colour (cursor : Nat) :
    (step record (activePair? record cursor) (placeOf brackets.mode) offset c).1 =
      (Visit.mk offset c brackets).colour record cursor := by
  rw [Visit.colour, ← plainColour_eq]
  cases mode : brackets.mode with
  | code => by_cases quote : c = '"' <;> simp [step, placeOf, Visit.isQuoted, inString, mode, quote]
  | string => simp [step, placeOf, Visit.isQuoted, inString, mode]
  | escape => simp [step, placeOf, Visit.isQuoted, inString, mode]
  | comment =>
    have noQuote : c ≠ '"' := fun quote => told ⟨mode, quote⟩
    simp [step, placeOf, Visit.isQuoted, inString, mode, noQuote]

end

def found (record : Brackets) (cursor : Nat) (visits : List Visit) :
    List (Char × Option Colour) :=
  visits.map fun visit => (visit.char, visit.colour record cursor)

/-- The colours agree with a scan up to the first quote in a comment, and no further. -/
theorem take_colours_iff (record : Brackets) (cursor : Nat) (text : List Char) (count offset : Nat)
    (brackets : Brackets) :
    let painted := colours record (activePair? record cursor) (placeOf brackets.mode) offset text
    let visits := Brackets.visitsFrom offset brackets text
    painted.take count = (found record cursor visits).take count ↔
      ∀ visit ∈ visits.take count, ¬ visit.IsQuoteInComment := by
  intro painted visits
  induction text generalizing count offset brackets with
  | nil => simp [painted, visits, colours, Brackets.visitsFrom, found]
  | cons c rest ih =>
    cases count with
    | zero => simp
    | succ count =>
      let visit : Visit := ⟨offset, c, brackets⟩
      simp only [painted, visits, colours, Brackets.visitsFrom, found, List.map_cons,
        List.take_succ_cons, List.cons.injEq, Prod.mk.injEq, true_and, List.forall_mem_cons]
      by_cases misleads : visit.IsQuoteInComment
      · -- green here, and not so for the scan
        have green : (step record (activePair? record cursor) (placeOf brackets.mode) offset c).1 =
            some .green := by
          obtain ⟨mode, quote⟩ := misleads
          simp [step, show brackets.mode = .comment from mode, show c = '"' from quote, placeOf]
        have other := misleads.colour_ne_green record cursor
        rw [green]
        exact iff_of_false (fun same => other same.1.symm) fun told => told.1 misleads
      · rw [step_colour misleads, step_place misleads]
        exact and_congr (iff_of_true rfl misleads) (ih count _ _)

theorem colour_of_unmatched (line : List Char) (cursor : Nat) :
    ∀ offset ∈ (Brackets.scan line).unmatched, ∃ visit ∈ Brackets.visits line,
      visit.offset = offset ∧ visit.colour (Brackets.scan line) cursor = some .boldRed := by
  intro offset isUnmatched
  have isOnRecord : offset ∈ (Brackets.scan line).offsets :=
    List.mem_append_right _ (List.mem_append_left _ isUnmatched)
  obtain ⟨visit, isIn, isBracket, rfl⟩ :=
    ((Brackets.scan_records line).lists.iff_bracket offset).1 isOnRecord
  refine ⟨visit, isIn, rfl, ?_⟩
  rw [Visit.colour, Visit.isQuoted_eq_false isBracket, if_neg Bool.false_ne_true, if_pos isUnmatched]

/-- The characters of a line come with the colours of what a scan finds, in order, up to the first
quote in a comment and no further. So a line without such a quote is shown in those colours, each
unmatched bracket in red. -/
theorem colours_follow_scan (line : List Char) (cursor : Nat) :
    (Brackets.visits line).map Visit.char = line ∧
    let visits := Brackets.visits line
    let record := Brackets.scan line
    let painted := colours record (activePair? record cursor) .outside 0 line
    (∀ count, painted.take count = (found record cursor visits).take count ↔
      ∀ visit ∈ visits.take count, ¬ visit.IsQuoteInComment) ∧
    ((∀ visit ∈ visits, ¬ visit.IsQuoteInComment) →
      render line cursor =
        String.join (visits.map fun visit => paint visit.char (visit.colour record cursor)) ∧
      ∀ offset ∈ record.unmatched, ∃ visit ∈ visits,
        visit.offset = offset ∧ visit.colour record cursor = some .boldRed) := by
  refine ⟨Brackets.map_char_visitsFrom 0 .empty line, ?_⟩
  intro visits record painted
  have agree (count : Nat) : painted.take count = (found record cursor visits).take count ↔
      ∀ visit ∈ visits.take count, ¬ visit.IsQuoteInComment :=
    take_colours_iff record cursor line count 0 .empty
  refine ⟨agree, fun told => ⟨?_, ?_⟩⟩
  · have same : painted = found record cursor visits := by
      have taken := (agree (painted.length + visits.length)).2 fun visit isIn =>
        told visit (List.mem_of_mem_take isIn)
      rwa [List.take_of_length_le (by omega), List.take_of_length_le (by simp [found])] at taken
    change String.join (painted.map fun entry => paint entry.1 entry.2) = _
    rw [same, found, List.map_map]
    rfl
  · exact colour_of_unmatched line cursor

/-- A line with a comment, an open string and a brace that nothing opened. -/
theorem brace_is_red :
    let line := "f(\"(\") \x7d // ) \n\"(".toList
    let record := Brackets.scan line
    let visits := Brackets.visits line
    (∀ visit ∈ visits, ¬ visit.IsQuoteInComment) ∧
      render line 1 =
        String.join (visits.map fun visit => paint visit.char (visit.colour record 1)) ∧
      ∀ offset ∈ record.unmatched, ∃ visit ∈ visits,
        visit.offset = offset ∧ visit.colour record 1 = some .boldRed := by
  intro line record visits
  have told : ∀ visit ∈ visits, ¬ visit.IsQuoteInComment := by decide +kernel
  exact ⟨told, (colours_follow_scan line 1).2.2 told⟩

/-- A quote in a comment is shown as the start of a string, and with it the rest of the text: a
bracket there is green though it is unmatched. -/
theorem quote_in_comment_starts_string :
    let line := "// \"\n)".toList
    let record := Brackets.scan line
    render line 0 ≠ String.join ((Brackets.visits line).map fun visit =>
        paint visit.char (visit.colour record 0)) ∧
      record.unmatched = [5] ∧
      (colours record (activePair? record 0) .outside 0 line)[5]? = some (')', some .green) := by
  decide +kernel

end Highlight

end Scriptlet
