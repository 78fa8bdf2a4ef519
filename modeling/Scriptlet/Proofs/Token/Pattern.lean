import Mathlib.Computability.Language
import Scriptlet.Proofs.Token.Cutting
import Scriptlet.Proofs.Token.Spelling

/-! The patterns of tokens and trivia as languages, and the text that wins where several match: the
longest one, and a reserved word before a name.
-/

set_option autoImplicit false

namespace Scriptlet

open Computability

def oneOf (holds : Char → Bool) : Language Char := {text | ∃ c, holds c = true ∧ text = [c]}

/-- What stands in a source. A string literal is told by its opening quote. -/
inductive Pattern where
  | blanks
  | comment
  | number
  | quote
  | word
  | keyword (reserved : Keyword)
  | mark (symbol : Mark)

namespace Pattern

def texts : Pattern → Language Char
  | blanks => oneOf isSpace * (oneOf isSpace)∗
  | comment => {['/', '/']} * (oneOf (· != '\n'))∗
  | number => oneOf isDigit * (oneOf isDigit)∗ * (1 + {['.']} * (oneOf isDigit)∗)
  | quote => {['"']}
  | word => oneOf isLetter * (oneOf isWordPart)∗
  | keyword reserved => {reserved.spelling.toList}
  | mark symbol => {symbol.spelling.toList}

def numberValue (text : List Char) : Float :=
  Number.ofDigits (text.takeWhile isDigit) ((text.dropWhile isDigit).drop 1)

/-- What a matching text is, unless it is trivia or more than the pattern has to be read. -/
def kind? (text : List Char) : Pattern → Option Kind
  | number => some (.number (numberValue text))
  | word => some (.identifier (String.ofList text))
  | keyword reserved => some (.keyword reserved)
  | mark symbol => some (.mark symbol)
  | blanks => none
  | comment => none
  | quote => none

/-- A text in front of another matches a pattern, and nothing longer there matches any. Of two
patterns that match it a reserved word goes before a name. -/
structure Wins (pattern : Pattern) (text after : List Char) : Prop where
  matched : text ∈ pattern.texts
  longest : ∀ (other : Pattern) (part : List Char), part ∈ other.texts → part <+: text ++ after →
    part.length ≤ text.length
  unreserved : pattern = word → ∀ reserved, text ∉ (keyword reserved).texts

/-! Languages as conditions on characters -/

theorem mem_oneOf_star {holds : Char → Bool} {text : List Char} :
    text ∈ (oneOf holds)∗ ↔ ∀ c ∈ text, holds c = true := by
  rw [Language.mem_kstar]
  constructor
  · rintro ⟨parts, rfl, each⟩ c member
    obtain ⟨part, isPart, inside⟩ := List.mem_flatten.1 member
    obtain ⟨found, holdsFound, rfl⟩ := each part isPart
    rw [List.mem_singleton.1 inside]
    exact holdsFound
  · intro all
    refine ⟨text.map fun c => [c], ?_, ?_⟩
    · rw [← List.flatMap_def, List.flatMap_singleton']
    · rintro part isPart
      obtain ⟨c, member, rfl⟩ := List.mem_map.1 isPart
      exact ⟨c, all c member, rfl⟩

theorem mem_oneOf_mul {holds : Char → Bool} {language : Language Char} {text : List Char} :
    text ∈ oneOf holds * language ↔
      ∃ c rest, text = c :: rest ∧ holds c = true ∧ rest ∈ language := by
  rw [Language.mem_mul]
  constructor
  · rintro ⟨_, ⟨c, holdsFirst, rfl⟩, rest, isRest, rfl⟩
    exact ⟨c, rest, rfl, holdsFirst, isRest⟩
  · rintro ⟨c, rest, rfl, holdsFirst, isRest⟩
    exact ⟨[c], ⟨c, holdsFirst, rfl⟩, rest, isRest, rfl⟩

theorem mem_singleton {single text : List Char} : text ∈ ({single} : Language Char) ↔ text = single :=
  Iff.rfl

theorem mem_blanks {text : List Char} : text ∈ blanks.texts ↔
    ∃ c rest, text = c :: rest ∧ isSpace c = true ∧ ∀ c ∈ rest, isSpace c = true := by
  simp only [texts, mem_oneOf_mul, mem_oneOf_star]

theorem mem_comment {text : List Char} : text ∈ comment.texts ↔
    ∃ rest, text = '/' :: '/' :: rest ∧ '\n' ∉ rest := by
  simp only [texts, Language.mem_mul, mem_singleton, mem_oneOf_star]
  constructor
  · rintro ⟨_, rfl, rest, noFeed, rfl⟩
    exact ⟨rest, rfl, fun feed => by simpa using noFeed _ feed⟩
  · rintro ⟨rest, rfl, noFeed⟩
    refine ⟨_, rfl, rest, fun c member => ?_, rfl⟩
    exact bne_iff_ne.2 fun feed => noFeed (feed ▸ member)

theorem mem_word {text : List Char} : text ∈ word.texts ↔
    ∃ c rest, text = c :: rest ∧ isLetter c = true ∧ ∀ c ∈ rest, isWordPart c = true := by
  simp only [texts, mem_oneOf_mul, mem_oneOf_star]

theorem mem_number {text : List Char} : text ∈ number.texts ↔
    ∃ c whole, isDigit c = true ∧ (∀ c ∈ whole, isDigit c = true) ∧
      (text = c :: whole ∨
        ∃ fraction, text = c :: (whole ++ '.' :: fraction) ∧ ∀ c ∈ fraction, isDigit c = true) := by
  rw [texts, mul_assoc, mem_oneOf_mul]
  simp only [Language.mem_mul, mem_oneOf_star, Language.mem_add, Language.mem_one, mem_singleton]
  constructor
  · rintro ⟨c, _, rfl, digit, whole, digits, _, rfl | ⟨_, rfl, fraction, others, rfl⟩, rfl⟩
    · exact ⟨c, whole, digit, digits, .inl (by rw [List.append_nil])⟩
    · exact ⟨c, whole, digit, digits, .inr ⟨fraction, rfl, others⟩⟩
  · rintro ⟨c, whole, digit, digits, rfl | ⟨fraction, rfl, others⟩⟩
    · exact ⟨c, whole, rfl, digit, whole, digits, [], .inl rfl, List.append_nil _⟩
    · exact ⟨c, _, rfl, digit, whole, digits, _, .inr ⟨_, rfl, fraction, others, rfl⟩, rfl⟩

/-! How a match begins tells the patterns apart -/

def begins : Pattern → Char → Prop
  | blanks, c => isSpace c = true
  | comment, c => c = '/'
  | number, c => isDigit c = true
  | quote, c => c = '"'
  | word, c => isLetter c = true
  | keyword _, c => isLetter c = true
  | mark _, c => isSpace c = false ∧ isDigit c = false ∧ isLetter c = false ∧ c ≠ '"'

theorem keyword_mem_word (reserved : Keyword) : reserved.spelling.toList ∈ word.texts := by
  rw [mem_word]
  cases reserved <;> exact ⟨_, _, rfl, rfl, List.all_eq_true.1 rfl⟩

theorem exists_begins {pattern : Pattern} {text : List Char} (matched : text ∈ pattern.texts) :
    ∃ c rest, text = c :: rest ∧ pattern.begins c := by
  cases pattern with
  | blanks =>
    obtain ⟨c, rest, rfl, space, _⟩ := mem_blanks.1 matched
    exact ⟨c, rest, rfl, space⟩
  | comment =>
    obtain ⟨rest, rfl, _⟩ := mem_comment.1 matched
    exact ⟨_, _, rfl, rfl⟩
  | number =>
    obtain ⟨c, whole, digit, _, rfl | ⟨fraction, rfl, _⟩⟩ := mem_number.1 matched
    · exact ⟨c, whole, rfl, digit⟩
    · exact ⟨c, _, rfl, digit⟩
  | quote =>
    obtain rfl := mem_singleton.1 matched
    exact ⟨_, _, rfl, rfl⟩
  | word =>
    obtain ⟨c, rest, rfl, letter, _⟩ := mem_word.1 matched
    exact ⟨c, rest, rfl, letter⟩
  | keyword reserved =>
    obtain rfl := mem_singleton.1 matched
    obtain ⟨c, rest, same, letter, _⟩ := mem_word.1 (keyword_mem_word reserved)
    exact ⟨c, rest, same, letter⟩
  | mark symbol =>
    obtain rfl := mem_singleton.1 matched
    cases symbol <;> exact ⟨_, _, rfl, rfl, rfl, rfl, by decide⟩

theorem begins_of_isPrefix {pattern : Pattern} {first : Char} {rest part : List Char}
    (matched : part ∈ pattern.texts) (isPrefix : part <+: first :: rest) :
    pattern.begins first := by
  obtain ⟨c, more, rfl, begins⟩ := exists_begins matched
  rw [← (List.cons_prefix_cons.1 isPrefix).1]
  exact begins

section

variable {pattern : Pattern} {first : Char}

theorem eq_number_of_begins (begins : pattern.begins first) (digit : isDigit first = true) :
    pattern = number := by
  cases pattern with
  | number => rfl
  | blanks =>
    have noSpace := isSpace_eq_false_of_isDigit digit
    cases noSpace.symm.trans begins
  | comment => exact absurd begins (ne_slash_of_isDigit digit)
  | quote =>
    obtain rfl := begins
    cases digit
  | word | keyword =>
    rw [isDigit_eq_false_of_isLetter begins] at digit
    cases digit
  | mark =>
    rw [begins.2.1] at digit
    cases digit

theorem word_or_keyword_of_begins (begins : pattern.begins first)
    (letter : isLetter first = true) : pattern = word ∨ ∃ reserved, pattern = keyword reserved := by
  cases pattern with
  | word => exact .inl rfl
  | keyword reserved => exact .inr ⟨reserved, rfl⟩
  | blanks =>
    have noSpace := isSpace_eq_false_of_isLetter letter
    cases noSpace.symm.trans begins
  | comment => exact absurd begins (ne_slash_of_isLetter letter)
  | number =>
    have noDigit := isDigit_eq_false_of_isLetter letter
    cases noDigit.symm.trans begins
  | quote =>
    obtain rfl := begins
    cases letter
  | mark =>
    rw [begins.2.2.1] at letter
    cases letter

theorem eq_quote_of_begins (begins : pattern.begins '"') : pattern = quote := by
  cases pattern with
  | quote => rfl
  | mark => exact absurd rfl begins.2.2.2
  | _ => cases begins

end

end Pattern

end Scriptlet
