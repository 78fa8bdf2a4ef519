import Scriptlet.Proofs.Token.Pattern

/-! A token is the longest text in front that matches a pattern, with a reserved word before a name. -/

set_option autoImplicit false

namespace Scriptlet

theorem exists_of_longer_prefix {text after part : List Char} (isPrefix : part <+: text ++ after)
    (longer : text.length < part.length) :
    ∃ c more, part = text ++ c :: more ∧ c ∈ after.head? := by
  obtain ⟨rest, whole⟩ := isPrefix
  rcases List.append_eq_append_iff.1 whole with ⟨more, rfl, _⟩ | ⟨more, rfl, rfl⟩
  · rw [List.length_append] at longer
    omega
  · cases more with
    | nil => simp at longer
    | cons c more => exact ⟨c, more, rfl, rfl⟩

namespace Keyword

theorem ofSpelling?_spelling (reserved : Keyword) :
    ofSpelling? reserved.spelling = some reserved := by
  cases reserved <;> decide

theorem ofSpelling?_eq_some_iff {text : String} {reserved : Keyword} :
    ofSpelling? text = some reserved ↔ reserved.spelling = text := by
  constructor
  · intro found
    unfold ofSpelling? at found
    simpa using List.find?_some found
  · rintro rfl
    exact ofSpelling?_spelling reserved

theorem spelling_injective {reserved other : Keyword}
    (same : reserved.spelling = other.spelling) : reserved = other :=
  Option.some.inj ((ofSpelling?_eq_some_iff.2 same).symm.trans (ofSpelling?_spelling other))

end Keyword

theorem Mark.spelling_injective {symbol other : Mark}
    (same : symbol.spelling = other.spelling) : symbol = other := by
  revert same
  cases symbol <;> cases other <;> decide

namespace Pattern

theorem isDigit_or_point_of_longer {text more : List Char} {c : Char}
    (matched : text ++ c :: more ∈ number.texts) :
    isDigit c = true ∨ c = '.' ∧ ∀ d ∈ text, isDigit d = true := by
  obtain ⟨first, whole, digit, digits, same | ⟨fraction, same, others⟩⟩ := mem_number.1 matched
  · have all : ∀ d ∈ text ++ c :: more, isDigit d = true :=
      same ▸ List.forall_mem_cons.2 ⟨digit, digits⟩
    exact .inl (all c (by simp))
  · have all : ∀ d ∈ first :: whole, isDigit d = true := List.forall_mem_cons.2 ⟨digit, digits⟩
    rw [← List.cons_append] at same
    -- the point stands behind the text, right there, or within it
    rcases List.append_eq_append_iff.1 same with ⟨before, front, back⟩ | ⟨before, front, back⟩
    · rw [front] at all
      cases before with
      | nil =>
        cases back
        exact .inr ⟨rfl, fun d member => all d (by simpa using member)⟩
      | cons d before =>
        obtain ⟨rfl, _⟩ := List.cons.inj back
        exact .inl (all _ (by simp))
    · cases before with
      | nil =>
        cases back
        exact .inr ⟨rfl, fun d member => all d (by simpa [front] using member)⟩
      | cons d before =>
        obtain ⟨_, rfl⟩ := List.cons.inj back
        exact .inl (others c (by simp))

theorem isWordPart_of_longer {first c : Char} {text more : List Char}
    (matched : first :: text ++ c :: more ∈ word.texts) : isWordPart c = true := by
  obtain ⟨_, rest, same, _, parts⟩ := mem_word.1 matched
  obtain ⟨_, rfl⟩ := List.cons.inj same
  exact parts c (by simp)

theorem no_trivia_of_isStart {first : Char} {rest part : List Char} (isStart : IsStart first rest)
    (isPrefix : part <+: first :: rest) : part ∉ blanks.texts ∧ part ∉ comment.texts := by
  constructor
  · intro matched
    cases isStart.1.symm.trans (begins_of_isPrefix matched isPrefix)
  · intro matched
    obtain ⟨text, rfl, _⟩ := mem_comment.1 matched
    obtain ⟨slash, others, rfl⟩ := List.cons_prefix_cons.1 isPrefix
    exact isStart.2 slash.symm rfl

end Pattern

namespace Lexeme

open Pattern (Wins)

variable {first : Char} {rest tail after : List Char} {kind : Kind}

theorem wins_of_readNumber (digit : isDigit first = true)
    (found : readNumber first (tail ++ after) = .token kind tail after) :
    Pattern.number.Wins (first :: tail) after := by
  obtain ⟨stops, parts⟩ := readNumber_cases found
  have matched : first :: tail ∈ Pattern.number.texts := by
    rw [Pattern.mem_number]
    rcases parts with ⟨digits, _⟩ | ⟨whole, fraction, rfl, digits, others⟩
    · exact ⟨first, tail, digit, digits, .inl rfl⟩
    · exact ⟨first, whole, digit, digits, .inr ⟨fraction, rfl, others⟩⟩
  refine ⟨matched, fun other part matchedPart isPrefix => ?_, by simp⟩
  obtain rfl := Pattern.eq_number_of_begins (Pattern.begins_of_isPrefix matchedPart isPrefix) digit
  by_contra longer
  obtain ⟨c, more, rfl, isHead⟩ := exists_of_longer_prefix isPrefix (Nat.lt_of_not_le longer)
  rcases Pattern.isDigit_or_point_of_longer matchedPart with isDigit | ⟨rfl, all⟩
  · rw [stops c isHead] at isDigit
    cases isDigit
  · rcases parts with ⟨_, noPoint⟩ | ⟨whole, fraction, rfl, _, _⟩
    · exact noPoint isHead
    · cases all '.' (by simp)

theorem kind_of_readNumber (digit : isDigit first = true)
    (found : readNumber first (tail ++ after) = .token kind tail after) :
    Pattern.number.kind? (first :: tail) = some kind := by
  obtain ⟨stops, parts⟩ := readNumber_cases found
  have all {whole : List Char} (digits : ∀ c ∈ whole, isDigit c = true) :
      ∀ c ∈ first :: whole, isDigit c = true := List.forall_mem_cons.2 ⟨digit, digits⟩
  simp only [Pattern.kind?, Pattern.numberValue]
  rcases parts with ⟨digits, noPoint⟩ | ⟨whole, fraction, rfl, digits, others⟩
  · rw [readNumber_whole digits stops noPoint] at found
    have ends : ∀ c ∈ [].head?, isDigit c = false := by simp
    obtain ⟨taken, dropped⟩ := takeWhile_append_of_stops (all digits) ends
    rw [List.append_nil] at taken dropped
    rw [taken, dropped]
    simp only [token.injEq] at found
    exact congrArg some found.1
  · rw [List.append_assoc, List.cons_append, readNumber_point digits others stops] at found
    have point : ∀ c ∈ ('.' :: fraction).head?, isDigit c = false := by
      rintro c (_ | _)
      rfl
    obtain ⟨taken, dropped⟩ := takeWhile_append_of_stops (all digits) point
    rw [← List.cons_append, taken, dropped]
    simp only [token.injEq] at found
    exact congrArg some found.1

theorem wins_of_readWord (letter : isLetter first = true)
    (found : readWord first (tail ++ after) = .token kind tail after) :
    ∃ pattern : Pattern, pattern.Wins (first :: tail) after ∧
      pattern.kind? (first :: tail) = some kind := by
  obtain ⟨parts, stops⟩ := readWord_cases found
  have isWord : first :: tail ∈ Pattern.word.texts :=
    Pattern.mem_word.2 ⟨first, tail, rfl, letter, parts⟩
  have longest : ∀ (other : Pattern) (part : List Char), part ∈ other.texts →
      part <+: first :: tail ++ after → part.length ≤ (first :: tail).length := by
    intro other part matched isPrefix
    by_contra longer
    obtain ⟨c, more, rfl, isHead⟩ := exists_of_longer_prefix isPrefix (Nat.lt_of_not_le longer)
    -- a reserved word is a word as well
    have matchedWord : first :: tail ++ c :: more ∈ Pattern.word.texts := by
      rcases Pattern.word_or_keyword_of_begins (Pattern.begins_of_isPrefix matched isPrefix) letter
        with rfl | ⟨reserved, rfl⟩
      · exact matched
      · rw [Pattern.mem_singleton.1 matched]
        exact Pattern.keyword_mem_word reserved
    have isPart := Pattern.isWordPart_of_longer matchedWord
    rw [stops c isHead] at isPart
    cases isPart
  rw [readWord_whole parts stops] at found
  simp only [token.injEq] at found
  obtain ⟨rfl, _, _⟩ := found
  unfold wordKind
  split
  · next reserved known =>
    have spelled := Keyword.ofSpelling?_eq_some_iff.1 known
    have matched : first :: tail ∈ (Pattern.keyword reserved).texts := by
      rw [Pattern.texts, Pattern.mem_singleton, spelled, String.toList_ofList]
    exact ⟨.keyword reserved, ⟨matched, longest, by simp⟩, rfl⟩
  · next unknown =>
    refine ⟨.word, ⟨isWord, longest, fun _ reserved matched => ?_⟩, rfl⟩
    have spelled : reserved.spelling = String.ofList (first :: tail) := by
      rw [Pattern.mem_singleton.1 matched, String.ofList_toList]
    rw [Keyword.ofSpelling?_eq_some_iff.2 spelled] at unknown
    cases unknown

theorem exists_token_of_readPair (second : Char) (long : Mark) (short : Kind) (rest : List Char) :
    ∃ kind tail after, readPair second long (.token short [] rest) rest = .token kind tail after := by
  cases rest with
  | nil => exact ⟨_, _, _, rfl⟩
  | cons next more =>
    rw [readPair]
    split <;> exact ⟨_, _, _, rfl⟩

/-- In front of a text, a mark with this spelling is read, or a longer one. -/
def TakesMark (spelling more : List Char) : Prop :=
  ∃ first rest, spelling ++ more = first :: rest ∧
    ∃ kind tail after, readMark first rest = .token kind tail after ∧
      spelling.length ≤ (first :: tail).length

theorem takesMark_single (c : Char) {more : List Char}
    (reads : ∃ kind tail after, readMark c more = .token kind tail after) : TakesMark [c] more := by
  obtain ⟨kind, tail, after, same⟩ := reads
  exact ⟨c, more, rfl, kind, tail, after, same, by simp⟩

theorem takesMark_pair (c second : Char) {more : List Char} {kind : Kind}
    (reads : readMark c (second :: more) = .token kind [second] more) : TakesMark [c, second] more :=
  ⟨c, second :: more, rfl, kind, [second], more, reads, Nat.le_refl _⟩

theorem takesMark_spelling (symbol : Mark) (more : List Char) :
    TakesMark symbol.spelling.toList more := by
  cases symbol with
  | plus => exact takesMark_single '+' ⟨_, _, _, rfl⟩
  | minus => exact takesMark_single '-' ⟨_, _, _, rfl⟩
  | star => exact takesMark_single '*' ⟨_, _, _, rfl⟩
  | slash => exact takesMark_single '/' ⟨_, _, _, rfl⟩
  | percent => exact takesMark_single '%' ⟨_, _, _, rfl⟩
  | bang => exact takesMark_single '!' (exists_token_of_readPair _ _ _ _)
  | bangEqual => exact takesMark_pair '!' '=' rfl
  | equal => exact takesMark_single '=' (exists_token_of_readPair _ _ _ _)
  | equalEqual => exact takesMark_pair '=' '=' rfl
  | less => exact takesMark_single '<' (exists_token_of_readPair _ _ _ _)
  | lessEqual => exact takesMark_pair '<' '=' rfl
  | greater => exact takesMark_single '>' (exists_token_of_readPair _ _ _ _)
  | greaterEqual => exact takesMark_pair '>' '=' rfl
  | andAnd => exact takesMark_pair '&' '&' rfl
  | orOr => exact takesMark_pair '|' '|' rfl
  | leftParen => exact takesMark_single '(' ⟨_, _, _, rfl⟩
  | rightParen => exact takesMark_single ')' ⟨_, _, _, rfl⟩
  | leftBrace => exact takesMark_single '\x7b' ⟨_, _, _, rfl⟩
  | rightBrace => exact takesMark_single '\x7d' ⟨_, _, _, rfl⟩
  | comma => exact takesMark_single ',' ⟨_, _, _, rfl⟩
  | semicolon => exact takesMark_single ';' ⟨_, _, _, rfl⟩

theorem isMark_of_readPair {second : Char} {long : Mark} {short : Lexeme} {rest tail after : List Char}
    {kind : Kind} (found : readPair second long short rest = .token kind tail after)
    (single : ∀ kind tail after, short = .token kind tail after → ∃ symbol, kind = .mark symbol) :
    ∃ symbol, kind = .mark symbol := by
  cases rest with
  | nil => exact single _ _ _ found
  | cons next more =>
    rw [readPair] at found
    split at found
    · cases found
      exact ⟨long, rfl⟩
    · exact single _ _ _ found

theorem exists_mark_of_readMark (found : readMark first rest = .token kind tail after) :
    ∃ symbol, kind = .mark symbol ∧ first :: tail = symbol.spelling.toList := by
  have isMark : ∃ symbol, kind = .mark symbol := by
    unfold readMark at found
    split at found <;>
      first
      | (cases found; done)
      | (cases found; exact ⟨_, rfl⟩)
      | exact isMark_of_readPair found (by simp)
  obtain ⟨symbol, rfl⟩ := isMark
  have isLexeme := isLexeme_of_readMark found
  generalize first :: tail = text at isLexeme ⊢
  cases isLexeme with
  | word isWord _ => cases isWord
  | mark => exact ⟨symbol, rfl, rfl⟩

theorem cause_of_readPair {second : Char} {long : Mark} {short : Lexeme} {rest tail : List Char}
    {cause : LexCause} (found : readPair second long short rest = .fault cause tail) :
    short = .fault cause tail := by
  cases rest with
  | nil => exact found
  | cons next more =>
    rw [readPair] at found
    split at found
    · cases found
    · exact found

theorem cause_of_readMark {cause : LexCause} (found : readMark first rest = .fault cause tail) :
    cause = .unexpectedCharacter first := by
  unfold readMark at found
  split at found <;>
    first
    | (cases found; done)
    | (cases found; rfl)
    | (cases cause_of_readPair found; done)
    | (cases cause_of_readPair found; rfl)

/-- A pattern that can begin neither with a digit nor a letter, a quote or trivia is a mark. -/
theorem exists_mark_of_begins {pattern : Pattern} {part : List Char} (isStart : IsStart first rest)
    (noDigit : isDigit first = false) (noLetter : isLetter first = false) (noQuote : first ≠ '"')
    (matched : part ∈ pattern.texts) (isPrefix : part <+: first :: rest) :
    ∃ symbol, pattern = .mark symbol := by
  have noTrivia := Pattern.no_trivia_of_isStart isStart isPrefix
  have begins := Pattern.begins_of_isPrefix matched isPrefix
  cases pattern with
  | mark symbol => exact ⟨symbol, rfl⟩
  | blanks => exact absurd matched noTrivia.1
  | comment => exact absurd matched noTrivia.2
  | number => cases noDigit.symm.trans begins
  | quote => exact absurd begins noQuote
  | word | keyword => cases noLetter.symm.trans begins

theorem wins_of_readMark (isStart : IsStart first (tail ++ after))
    (noDigit : isDigit first = false) (noLetter : isLetter first = false) (noQuote : first ≠ '"')
    (found : readMark first (tail ++ after) = .token kind tail after) :
    ∃ pattern : Pattern, pattern.Wins (first :: tail) after ∧
      pattern.kind? (first :: tail) = some kind := by
  obtain ⟨symbol, rfl, spelled⟩ := exists_mark_of_readMark found
  refine ⟨.mark symbol, ⟨spelled, fun other part matched isPrefix => ?_, by simp⟩, rfl⟩
  obtain ⟨longer, rfl⟩ := exists_mark_of_begins isStart noDigit noLetter noQuote matched isPrefix
  obtain rfl := Pattern.mem_singleton.1 matched
  obtain ⟨more, whole⟩ := isPrefix
  obtain ⟨c, others, same, _, _, _, reads, shorter⟩ := takesMark_spelling longer more
  rw [whole, List.cons_append] at same
  obtain ⟨rfl, rfl⟩ := List.cons.inj same
  rw [found] at reads
  cases reads
  exact shorter

theorem no_match_of_readMark {cause : LexCause} (isStart : IsStart first rest)
    (noDigit : isDigit first = false) (noLetter : isLetter first = false) (noQuote : first ≠ '"')
    (found : readMark first rest = .fault cause tail) (pattern : Pattern) {part : List Char}
    (isPrefix : part <+: first :: rest) : part ∉ pattern.texts := by
  intro matched
  obtain ⟨symbol, rfl⟩ := exists_mark_of_begins isStart noDigit noLetter noQuote matched isPrefix
  obtain rfl := Pattern.mem_singleton.1 matched
  obtain ⟨more, whole⟩ := isPrefix
  obtain ⟨c, others, same, _, _, _, reads, _⟩ := takesMark_spelling symbol more
  rw [whole] at same
  cases same
  rw [found] at reads
  cases reads

/-- A token that is no string literal is what its winning pattern makes of its text. -/
theorem exists_wins_of_token (isStart : IsStart first (tail ++ after)) (noQuote : first ≠ '"')
    (found : read first (tail ++ after) = .token kind tail after) :
    ∃ pattern : Pattern, pattern.Wins (first :: tail) after ∧
      pattern.kind? (first :: tail) = some kind := by
  unfold read at found
  split at found
  · next digit => exact ⟨_, wins_of_readNumber digit found, kind_of_readNumber digit found⟩
  · next noDigit =>
    split at found
    · next letter => exact wins_of_readWord letter found
    · next noLetter =>
      exact wins_of_readMark isStart (Bool.eq_false_iff.2 noDigit) (Bool.eq_false_iff.2 noLetter)
        noQuote found

theorem unexpected_of_fault {cause : LexCause} (isStart : IsStart first rest)
    (noQuote : first ≠ '"') (found : read first rest = .fault cause tail) :
    cause = .unexpectedCharacter first ∧ tail = [] ∧
      ∀ (pattern : Pattern) (part : List Char), part <+: first :: rest → part ∉ pattern.texts := by
  unfold read at found
  split at found
  · unfold readNumber at found
    dsimp only at found
    split at found <;> cases found
  · next noDigit =>
    split at found
    · cases found
    · next noLetter =>
      exact ⟨cause_of_readMark found, tail_of_readMark found, fun pattern part isPrefix =>
        no_match_of_readMark isStart (Bool.eq_false_iff.2 noDigit) (Bool.eq_false_iff.2 noLetter)
          noQuote found pattern isPrefix⟩

end Lexeme

namespace Pattern

theorem quote_wins (after : List Char) : quote.Wins ['"'] after := by
  refine ⟨rfl, fun other part matched isPrefix => ?_, by simp⟩
  obtain rfl := eq_quote_of_begins (begins_of_isPrefix matched isPrefix)
  rw [mem_singleton.1 matched]

/-- Where no trivia stands, at most one pattern wins, and with one text. -/
theorem Wins.unique {pattern other : Pattern} {first : Char} {text rest part after more : List Char}
    (isStart : IsStart first rest) (wins : pattern.Wins text after)
    (whole : text ++ after = first :: rest) (winsToo : other.Wins part more)
    (same : part ++ more = first :: rest) : pattern = other ∧ text = part ∧ after = more := by
  have isPrefix : text <+: first :: rest := ⟨after, whole⟩
  have shorter := winsToo.longest pattern text wins.matched (same ▸ isPrefix)
  have longer := wins.longest other part winsToo.matched (whole ▸ ⟨more, same⟩)
  -- both texts are longest matches, so they are equally long
  obtain ⟨rfl, rfl⟩ := List.append_inj (whole.trans same.symm) (Nat.le_antisymm shorter longer)
  refine ⟨?_, rfl, rfl⟩
  have noTrivia := no_trivia_of_isStart isStart isPrefix
  have begins := begins_of_isPrefix wins.matched isPrefix
  have beginsToo := begins_of_isPrefix winsToo.matched isPrefix
  -- only names and reserved words can match the same text, and there a reserved word goes first
  cases pattern with
  | blanks => exact absurd wins.matched noTrivia.1
  | comment => exact absurd wins.matched noTrivia.2
  | number => exact (eq_number_of_begins beginsToo begins).symm
  | quote =>
    obtain rfl : first = '"' := begins
    exact (eq_quote_of_begins beginsToo).symm
  | word =>
    rcases word_or_keyword_of_begins beginsToo begins with rfl | ⟨reserved, rfl⟩
    · rfl
    · exact absurd winsToo.matched (wins.unreserved rfl reserved)
  | keyword reserved =>
    rcases word_or_keyword_of_begins beginsToo begins with rfl | ⟨another, rfl⟩
    · exact absurd wins.matched (winsToo.unreserved rfl reserved)
    · have spelled := (mem_singleton.1 wins.matched).symm.trans (mem_singleton.1 winsToo.matched)
      exact congrArg keyword (Keyword.spelling_injective (String.toList_inj.1 spelled))
  | mark symbol =>
    obtain ⟨another, rfl⟩ := Lexeme.exists_mark_of_begins isStart begins.2.1 begins.2.2.1
      begins.2.2.2 winsToo.matched isPrefix
    have spelled := (mem_singleton.1 wins.matched).symm.trans (mem_singleton.1 winsToo.matched)
    exact congrArg mark (Mark.spelling_injective (String.toList_inj.1 spelled))

end Pattern

end Scriptlet
