import Scriptlet.Proofs.Editing.Offsets

/-! The characters of a text as a bracket scan comes to them.

A scan takes a character by what it stands in then: the same sign is a bracket in one place and part
of a string in another.
-/

set_option autoImplicit false

namespace Scriptlet.Brackets

/-- A character that a scan comes to: where it starts, and what the scan has found by then. -/
structure Visit where
  offset : Nat
  char : Char
  before : Brackets

def visitsFrom (offset : Nat) (brackets : Brackets) : List Char → List Visit
  | [] => []
  | c :: rest =>
    ⟨offset, c, brackets⟩ ::
      visitsFrom (offset + c.utf8Size) (brackets.step offset c rest.head?) rest

def visits (text : List Char) : List Visit := visitsFrom 0 empty text

namespace Visit

/-- The bracket that is opened, if the character does so outside of strings and comments. -/
def opens? (visit : Visit) : Option Bracket :=
  if visit.before.mode = .code then Bracket.opening? visit.char else none

def closes? (visit : Visit) : Option Bracket :=
  if visit.before.mode = .code then Bracket.closing? visit.char else none

def isBracket (visit : Visit) : Bool := visit.opens?.isSome || visit.closes?.isSome

/-- Part of a string literal, its quotes included. -/
def isQuoted (visit : Visit) : Bool :=
  visit.before.inString || (visit.before.mode == .code && visit.char == '"')

theorem isBracket_of_opens {visit : Visit} {bracket : Bracket}
    (opens : visit.opens? = some bracket) : visit.isBracket = true := by
  simp [isBracket, opens]

theorem isBracket_of_closes {visit : Visit} {bracket : Bracket}
    (closes : visit.closes? = some bracket) : visit.isBracket = true := by
  simp [isBracket, closes]

theorem isQuoted_eq_false {visit : Visit} (isOne : visit.isBracket = true) :
    visit.isQuoted = false := by
  have code : visit.before.mode = .code := by
    by_contra other
    simp [isBracket, opens?, closes?, other] at isOne
  have noQuote : visit.char ≠ '"' := by
    intro quote
    simp [isBracket, opens?, closes?, quote, Bracket.opening?, Bracket.closing?] at isOne
  simp [isQuoted, inString, code, noQuote]

end Visit

theorem map_char_visitsFrom (offset : Nat) (brackets : Brackets) (text : List Char) :
    (visitsFrom offset brackets text).map Visit.char = text := by
  induction text generalizing offset brackets with
  | nil => rfl
  | cons c rest ih => rw [visitsFrom, List.map_cons, ih]

/-! What a scan does at a character -/

theorem step_code {brackets : Brackets} (code : brackets.mode = .code) (offset : Nat) (c : Char)
    (next : Option Char) : brackets.step offset c next = brackets.stepCode offset c next := by
  rw [step, code]

theorem mode_step_code {brackets : Brackets} (code : brackets.mode = .code) (offset : Nat)
    (c : Char) (next : Option Char) :
    (brackets.step offset c next).mode =
      if c = '"' then .string else if c = '/' && next == some '/' then .comment else .code := by
  rw [step_code code, stepCode]
  split
  · rfl
  · split
    · rfl
    · split
      · exact code
      · split
        · exact (mode_close brackets _ offset).trans code
        · exact code

theorem step_cases (brackets : Brackets) (offset : Nat) (c : Char) (next : Option Char) :
    let visit : Visit := ⟨offset, c, brackets⟩
    (∃ bracket, visit.opens? = some bracket ∧
      brackets.step offset c next =
        { brackets with opened := (bracket, offset) :: brackets.opened }) ∨
    (∃ bracket, visit.closes? = some bracket ∧
      brackets.step offset c next = brackets.close bracket offset) ∨
    visit.isBracket = false ∧ ∃ mode, brackets.step offset c next = brackets.stand mode := by
  intro visit
  by_cases code : brackets.mode = .code
  -- in code a quote and the start of a comment are looked for before brackets are
  · have opens : visit.opens? = Bracket.opening? c := if_pos code
    have closes : visit.closes? = Bracket.closing? c := if_pos code
    simp only [Visit.isBracket, opens, closes, step_code code, stepCode]
    split
    · next quote => exact .inr (.inr ⟨by rw [quote]; rfl, .string, rfl⟩)
    · split
      · next slashes =>
        have slash : c = '/' := of_decide_eq_true (Bool.and_eq_true_iff.1 slashes).1
        exact .inr (.inr ⟨by rw [slash]; rfl, .comment, rfl⟩)
      · split
        · next bracket opening => exact .inl ⟨bracket, opening, rfl⟩
        · split
          · next bracket closing => exact .inr (.inl ⟨bracket, closing, rfl⟩)
          · next noOpening _ noClosing =>
            exact .inr (.inr ⟨by rw [noOpening, noClosing]; rfl, brackets.mode, rfl⟩)
  · have noBracket : visit.isBracket = false := by
      simp [Visit.isBracket, Visit.opens?, Visit.closes?, visit, code]
    refine .inr (.inr ⟨noBracket, ?_⟩)
    unfold step
    split
    · contradiction
    · split
      · exact ⟨.escape, rfl⟩
      · split
        · exact ⟨.code, rfl⟩
        · exact ⟨brackets.mode, rfl⟩
    · exact ⟨.string, rfl⟩
    · split
      · exact ⟨.code, rfl⟩
      · exact ⟨brackets.mode, rfl⟩

end Scriptlet.Brackets
