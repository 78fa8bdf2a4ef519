import Scriptlet.Proofs.Token.Coverage

/-! The three ways in which a string literal ends: at a quote, at an escape that stands for nothing, or
with the text.
-/

set_option autoImplicit false

namespace Scriptlet

/-- What may stand behind a backslash, each with the character that it stands for. -/
def Quoted.escapes : List (Char × Char) :=
  [('n', '\n'), ('t', '\t'), ('r', '\r'), ('0', '\x00'), ('"', '"'), ('\\', '\\')]

theorem Quoted.escaped?_eq_some_iff {mark c : Char} : escaped? mark = some c ↔ (mark, c) ∈ escapes := by
  constructor
  · intro known
    unfold escaped? at known
    split at known
    case h_7 => cases known
    all_goals cases known; decide
  · intro member
    simp only [escapes, List.mem_cons, Prod.mk.injEq, List.not_mem_nil, or_false] at member
    rcases member with ⟨rfl, rfl⟩ | ⟨rfl, rfl⟩ | ⟨rfl, rfl⟩ | ⟨rfl, rfl⟩ | ⟨rfl, rfl⟩ | ⟨rfl, rfl⟩ <;>
      rfl

/-- A text without a quote outside of an escape, all of whose escapes are known, with what it stands
for. -/
inductive Unescapes : List Char → List Char → Prop where
  | nil : Unescapes [] []
  | plain {c : Char} {text value : List Char} : c ≠ '"' → c ≠ '\\' → Unescapes text value →
    Unescapes (c :: text) (c :: value)
  | escape {mark c : Char} {text value : List Char} : (mark, c) ∈ Quoted.escapes →
    Unescapes text value → Unescapes ('\\' :: mark :: text) (c :: value)

namespace StringBody

theorem read_plain {c : Char} (noQuote : c ≠ '"') (noBackslash : c ≠ '\\') (rest : List Char) :
    read (c :: rest) = (read rest).extend c [c] := by
  rw [read]
  · exact noQuote
  · exact fun same => absurd same noBackslash
  · exact fun _ _ same => absurd same noBackslash

theorem read_escape {mark c : Char} (known : (mark, c) ∈ Quoted.escapes) (rest : List Char) :
    read ('\\' :: mark :: rest) = (read rest).extend c ['\\', mark] := by
  rw [read, Quoted.escaped?_eq_some_iff.2 known]

variable {inside value : List Char}

theorem read_of_closed (unescapes : Unescapes inside value) (after : List Char) :
    read (inside ++ '"' :: after) = .closed value (inside ++ ['"']) after := by
  induction unescapes with
  | nil => rfl
  | plain noQuote noBackslash _ ih =>
    rw [List.cons_append, read_plain noQuote noBackslash, ih]
    rfl
  | escape known _ ih =>
    rw [List.cons_append, List.cons_append, read_escape known, ih]
    rfl

theorem read_of_unknown (unescapes : Unescapes inside value) {mark : Char}
    (unknown : ∀ c, (mark, c) ∉ Quoted.escapes) (after : List Char) :
    read (inside ++ '\\' :: mark :: after) = .unknownEscape mark (inside ++ ['\\', mark]) := by
  induction unescapes with
  | nil =>
    have none : Quoted.escaped? mark = none := by
      cases found : Quoted.escaped? mark with
      | none => rfl
      | some c => exact absurd (Quoted.escaped?_eq_some_iff.1 found) (unknown c)
    rw [List.nil_append, read, none]
    rfl
  | plain noQuote noBackslash _ ih =>
    rw [List.cons_append, read_plain noQuote noBackslash, ih]
    rfl
  | escape known _ ih =>
    rw [List.cons_append, List.cons_append, read_escape known, ih]
    rfl

/-- A text goes to its first quote, to its first unknown escape before one, or to its end. -/
theorem read_cases (rest : List Char) :
    (∃ inside value after, Unescapes inside value ∧ rest = inside ++ '"' :: after) ∨
      (∃ inside value mark after, Unescapes inside value ∧ (∀ c, (mark, c) ∉ Quoted.escapes) ∧
        rest = inside ++ '\\' :: mark :: after) ∨
      read rest = .unterminated rest := by
  fun_induction read rest with
  | case1 => exact .inr (.inr rfl)
  | case2 after => exact .inl ⟨[], [], after, .nil, rfl⟩
  | case3 => exact .inr (.inr rfl)
  | case4 mark rest c known ih =>
    have escape := Quoted.escaped?_eq_some_iff.1 known
    rcases ih with ⟨inside, value, after, unescapes, rfl⟩ |
      ⟨inside, value, bad, after, unescapes, unknown, rfl⟩ | whole
    · exact .inl ⟨_, _, after, .escape escape unescapes, rfl⟩
    · exact .inr (.inl ⟨_, _, bad, after, .escape escape unescapes, unknown, rfl⟩)
    · rw [whole]
      exact .inr (.inr rfl)
  | case5 mark rest none =>
    refine .inr (.inl ⟨[], [], mark, rest, .nil, fun c known => ?_, rfl⟩)
    rw [Quoted.escaped?_eq_some_iff.2 known] at none
    cases none
  | case6 c rest noQuote noEnd noMark ih =>
    -- a backslash is either the last character or takes the next one, and both cases are gone
    have noBackslash : c ≠ '\\' := by
      intro same
      cases rest with
      | nil => exact noEnd same rfl
      | cons mark more => exact noMark mark more same rfl
    rcases ih with ⟨inside, value, after, unescapes, rfl⟩ |
      ⟨inside, value, bad, after, unescapes, unknown, rfl⟩ | whole
    · exact .inl ⟨_, _, after, .plain noQuote noBackslash unescapes, rfl⟩
    · exact .inr (.inl ⟨_, _, bad, after, .plain noQuote noBackslash unescapes, unknown, rfl⟩)
    · rw [whole]
      exact .inr (.inr rfl)

end StringBody

end Scriptlet
