import Scriptlet.Proofs.Grammar.Passes
import Scriptlet.Proofs.Token.Following
import Scriptlet.Proofs.Token.Lexical

/-! Every row of tokens has a text: their spellings with spaces before them. -/

set_option autoImplicit false

namespace Scriptlet

def Breaks (after : List Char) : Prop := after = [] ∨ ∃ more, after = ' ' :: more

/-- A text, given by its first character and the others, that is read as one token of a kind
wherever a space or nothing follows. -/
structure Spells (first : Char) (rest : List Char) (kind : Kind) : Prop where
  notSpace : isSpace first = false
  noComment : first = '/' → rest = []
  reads : ∀ after, Breaks after → Lexeme.read first (rest ++ after) = .token kind rest after

theorem Breaks.stops {after : List Char} (breaks : Breaks after) {holds : Char → Bool}
    (space : holds ' ' = false) : ∀ c ∈ after.head?, holds c = false := by
  rcases breaks with rfl | ⟨more, rfl⟩
  · simp
  · simp [space]

/-! The characters that tokens begin with are told apart -/

theorem isSpace_eq_false_of_isDigit {c : Char} (digit : isDigit c = true) : isSpace c = false := by
  rw [← Bool.not_eq_true]
  intro space
  rw [isDigit_of_isSpace c space] at digit
  cases digit

theorem isSpace_eq_false_of_isLetter {c : Char} (letter : isLetter c = true) :
    isSpace c = false := by
  rw [← Bool.not_eq_true]
  intro space
  have noPart := isWordPart_of_isSpace c space
  rw [isWordPart, letter, Bool.true_or] at noPart
  cases noPart

theorem isDigit_eq_false_of_isLetter {c : Char} (letter : isLetter c = true) :
    isDigit c = false := by
  simp only [isLetter, isDigit, Bool.or_eq_true, Bool.and_eq_true, decide_eq_true_eq, beq_iff_eq,
    Char.le_def, UInt32.le_iff_toNat_le] at letter ⊢
  rcases letter with (letter | letter) | rfl
  · simp at letter ⊢
    omega
  · simp at letter ⊢
    omega
  · decide

theorem ne_slash_of_isDigit {c : Char} (digit : isDigit c = true) : c ≠ '/' := by
  rintro rfl
  cases digit

theorem ne_slash_of_isLetter {c : Char} (letter : isLetter c = true) : c ≠ '/' := by
  rintro rfl
  cases letter

/-! The spellings of each kind of token -/

theorem spells_number {first : Char} {whole fraction : List Char} (digit : isDigit first = true)
    (wholeDigits : ∀ c ∈ whole, isDigit c = true) (digits : ∀ c ∈ fraction, isDigit c = true) :
    Spells first (whole ++ '.' :: fraction)
      (.number (Number.ofDigits (first :: whole) fraction)) := by
  refine ⟨isSpace_eq_false_of_isDigit digit, fun slash => absurd slash (ne_slash_of_isDigit digit),
    fun after breaks => ?_⟩
  rw [Lexeme.read, if_pos digit, List.append_assoc, List.cons_append,
    Lexeme.readNumber_point wholeDigits digits (breaks.stops rfl)]

theorem spells_word {first : Char} {rest : List Char} {kind : Kind} (letter : isLetter first = true)
    (parts : ∀ c ∈ rest, isWordPart c = true)
    (same : Lexeme.wordKind (String.ofList (first :: rest)) = kind) : Spells first rest kind := by
  refine ⟨isSpace_eq_false_of_isLetter letter,
    fun slash => absurd slash (ne_slash_of_isLetter letter), fun after breaks => ?_⟩
  rw [Lexeme.read, isDigit_eq_false_of_isLetter letter, if_neg Bool.false_ne_true, if_pos letter,
    Lexeme.readWord_whole parts (breaks.stops rfl), same]

theorem StringBody.read_written (c : Char) (rest : List Char) :
    StringBody.read (Quoted.written c ++ rest) =
      (StringBody.read rest).extend c (Quoted.written c) := by
  unfold Quoted.written
  split <;> first | rfl | skip
  -- what is written as itself is neither a quote nor a backslash
  next noQuote noBackslash _ _ _ _ =>
  simp only [List.singleton_append]
  rw [StringBody.read]
  · exact noQuote
  · intro same _
    exact noBackslash same
  · intro mark rest same _
    exact noBackslash same

theorem StringBody.read_quoted (text after : List Char) :
    StringBody.read (text.flatMap Quoted.written ++ ('"' :: after)) =
      .closed text (text.flatMap Quoted.written ++ ['"']) after := by
  induction text with
  | nil => rfl
  | cons c text ih =>
    rw [List.flatMap_cons, List.append_assoc, StringBody.read_written, ih, StringBody.extend,
      List.append_assoc]

theorem Lexeme.read_quoted (text : String) (after : List Char) :
    let tail := text.toList.flatMap Quoted.written ++ ['"']
    Lexeme.read '"' (tail ++ after) = .token (.string text) tail after := by
  intro tail
  have body := StringBody.read_quoted text.toList after
  show Lexeme.readString (tail ++ after) = _
  rw [Lexeme.readString, List.append_assoc, List.singleton_append, body]
  simp only [String.ofList_toList, tail]

theorem spells_string (text : String) :
    Spells '"' (text.toList.flatMap Quoted.written ++ ['"']) (.string text) :=
  ⟨rfl, by simp, fun after _ => Lexeme.read_quoted text after⟩

theorem exists_spells_mark (symbol : Mark) : ∃ first rest, Spells first rest (.mark symbol) := by
  -- before a space or nothing, no mark is taken for a longer one
  have single (c : Char) {mark : Mark} (notSpace : isSpace c = false)
      (ends : Lexeme.read c [] = .token (.mark mark) [] [])
      (spaced : ∀ more, Lexeme.read c (' ' :: more) = .token (.mark mark) [] (' ' :: more)) :
      ∃ first rest, Spells first rest (.mark mark) := by
    refine ⟨c, [], notSpace, fun _ => rfl, fun after breaks => ?_⟩
    rcases breaks with rfl | ⟨more, rfl⟩
    · exact ends
    · exact spaced more
  -- of the marks of two characters none begins another
  have pair (c second : Char) {mark : Mark} (notSpace : isSpace c = false) (noSlash : c ≠ '/')
      (reads : ∀ after, Lexeme.read c (second :: after) = .token (.mark mark) [second] after) :
      ∃ first rest, Spells first rest (.mark mark) :=
    ⟨c, [second], notSpace, fun slash => absurd slash noSlash, fun after _ => reads after⟩
  cases symbol with
  | plus => exact single '+' rfl rfl fun _ => rfl
  | minus => exact single '-' rfl rfl fun _ => rfl
  | star => exact single '*' rfl rfl fun _ => rfl
  | slash => exact single '/' rfl rfl fun _ => rfl
  | percent => exact single '%' rfl rfl fun _ => rfl
  | bang => exact single '!' rfl rfl fun _ => rfl
  | bangEqual => exact pair '!' '=' rfl (by decide) fun _ => rfl
  | equal => exact single '=' rfl rfl fun _ => rfl
  | equalEqual => exact pair '=' '=' rfl (by decide) fun _ => rfl
  | less => exact single '<' rfl rfl fun _ => rfl
  | lessEqual => exact pair '<' '=' rfl (by decide) fun _ => rfl
  | greater => exact single '>' rfl rfl fun _ => rfl
  | greaterEqual => exact pair '>' '=' rfl (by decide) fun _ => rfl
  | andAnd => exact pair '&' '&' rfl (by decide) fun _ => rfl
  | orOr => exact pair '|' '|' rfl (by decide) fun _ => rfl
  | leftParen => exact single '(' rfl rfl fun _ => rfl
  | rightParen => exact single ')' rfl rfl fun _ => rfl
  | leftBrace => exact single '\x7b' rfl rfl fun _ => rfl
  | rightBrace => exact single '\x7d' rfl rfl fun _ => rfl
  | comma => exact single ',' rfl rfl fun _ => rfl
  | semicolon => exact single ';' rfl rfl fun _ => rfl

theorem exists_spells_keyword (word : Keyword) :
    ∃ first rest, Spells first rest (.keyword word) := by
  have spells (first : Char) (rest : List Char) {word : Keyword} (letter : isLetter first = true)
      (parts : rest.all isWordPart = true)
      (known : Keyword.ofSpelling? (String.ofList (first :: rest)) = some word) :
      ∃ first rest, Spells first rest (.keyword word) :=
    ⟨first, rest, spells_word letter (List.all_eq_true.mp parts) (by rw [Lexeme.wordKind, known])⟩
  cases word with
  | letWord => exact spells 'l' ['e', 't'] rfl rfl rfl
  | fnWord => exact spells 'f' ['n'] rfl rfl rfl
  | ifWord => exact spells 'i' ['f'] rfl rfl rfl
  | elseWord => exact spells 'e' ['l', 's', 'e'] rfl rfl rfl
  | whileWord => exact spells 'w' ['h', 'i', 'l', 'e'] rfl rfl rfl
  | forWord => exact spells 'f' ['o', 'r'] rfl rfl rfl
  | returnWord => exact spells 'r' ['e', 't', 'u', 'r', 'n'] rfl rfl rfl
  | breakWord => exact spells 'b' ['r', 'e', 'a', 'k'] rfl rfl rfl
  | continueWord => exact spells 'c' ['o', 'n', 't', 'i', 'n', 'u', 'e'] rfl rfl rfl
  | trueWord => exact spells 't' ['r', 'u', 'e'] rfl rfl rfl
  | falseWord => exact spells 'f' ['a', 'l', 's', 'e'] rfl rfl rfl
  | nilWord => exact spells 'n' ['i', 'l'] rfl rfl rfl

/-- A kind that tokens of a source can have: the end of input is no part of one. -/
def Kind.HasText (kind : Kind) : Prop := kind.Lexical ∧ kind ≠ .endOfInput

namespace Kind.HasText

theorem number {value : Float} (literal : IsLiteral value) : (Kind.number value).HasText :=
  ⟨literal, by simp⟩

theorem string (text : String) : (Kind.string text).HasText := ⟨trivial, by simp⟩

theorem identifier {name : String} (sound : IsName name) : (Kind.identifier name).HasText :=
  ⟨sound, by simp⟩

theorem keyword (word : Keyword) : (Kind.keyword word).HasText := ⟨trivial, by simp⟩

theorem mark (symbol : Mark) : (Kind.mark symbol).HasText := ⟨trivial, by simp⟩

end Kind.HasText

theorem Kind.HasText.exists_spells {kind : Kind} (hasText : kind.HasText) :
    ∃ first rest, Spells first rest kind := by
  obtain ⟨lexical, ends⟩ := hasText
  cases kind with
  | number value =>
    obtain ⟨first, whole, fraction, digit, wholeDigits, digits, rfl⟩ := lexical
    exact ⟨first, _, spells_number digit wholeDigits digits⟩
  | string text => exact ⟨'"', _, spells_string text⟩
  | identifier name =>
    obtain ⟨first, rest, text, letter, parts, unreserved⟩ := lexical
    refine ⟨first, rest, spells_word letter parts ?_⟩
    rw [← text, String.ofList_toList, Lexeme.wordKind, unreserved]
  | keyword word => exact exists_spells_keyword word
  | mark symbol => exact exists_spells_mark symbol
  | endOfInput => exact absurd rfl ends

/-! Rows of tokens -/

theorem Spells.isStart {first : Char} {rest : List Char} {kind : Kind}
    (spells : Spells first rest kind) {after : List Char} (breaks : Breaks after) :
    IsStart first (rest ++ after) := by
  refine ⟨spells.notSpace, fun slash => ?_⟩
  -- a slash stands alone, so no comment begins with it
  rw [spells.noComment slash]
  rcases breaks with rfl | ⟨more, rfl⟩ <;> simp

theorem Spells.trivia {first : Char} {rest : List Char} {kind : Kind}
    (spells : Spells first rest kind) {after : List Char} (breaks : Breaks after) :
    splitTrivia (' ' :: first :: (rest ++ after)) = ([' '], first :: (rest ++ after)) :=
  splitTrivia_append_of_isGap (.blank rfl .nil) (splitTrivia_of_isStart (spells.isStart breaks))

theorem Spells.scan {first : Char} {rest : List Char} {kind : Kind}
    (spells : Spells first rest kind) {after : List Char} (breaks : Breaks after) (offset : Nat) :
    ∃ token stop, token.kind = kind ∧
      Stream.scan offset (' ' :: first :: (rest ++ after)) =
        .token token (Stream.scan stop after) := by
  have trivia := spells.trivia breaks
  rw [Stream.scan]
  split
  · next gap =>
    rw [trivia] at gap
    cases gap
  · next head tail gap =>
    rw [trivia] at gap
    cases gap
    split
    · next found =>
      rw [spells.reads after breaks] at found
      cases found
      exact ⟨_, _, rfl, rfl⟩
    · next found =>
      rw [spells.reads after breaks] at found
      cases found

theorem exists_scan_of_kinds {kinds : List Kind} (texts : ∀ kind ∈ kinds, kind.HasText) :
    ∃ source, Breaks source ∧ ∀ offset, (Stream.scan offset source).error? = none ∧
      (Stream.scan offset source).tokens.map Token.kind = kinds ++ [.endOfInput] := by
  induction kinds with
  | nil =>
    refine ⟨[], .inl rfl, fun offset => ?_⟩
    have ending : Stream.scan offset [] = .ending (offset + 0) := by
      rw [Stream.scan]
      rfl
    rw [ending]
    exact ⟨rfl, rfl⟩
  | cons kind kinds ih =>
    obtain ⟨hasText, others⟩ := List.forall_mem_cons.mp texts
    -- the text of what follows begins with a space, so the spelling in front is read as it is
    obtain ⟨first, rest, spells⟩ := hasText.exists_spells
    obtain ⟨source, breaks, scanned⟩ := ih others
    refine ⟨' ' :: first :: (rest ++ source), .inr ⟨_, rfl⟩, fun offset => ?_⟩
    obtain ⟨token, stop, same, scan⟩ := spells.scan breaks offset
    obtain ⟨noError, kindsAfter⟩ := scanned stop
    rw [scan, Stream.error?, Stream.tokens, List.map_cons, same, kindsAfter]
    exact ⟨noError, rfl⟩

/-- Kinds of tokens that a source can have in a row are those of some source. -/
theorem exists_source_of_kinds {kinds : List Kind} (texts : ∀ kind ∈ kinds, kind.HasText) :
    ∃ source tokens, tokenize source = .ok tokens ∧
      tokens.map Token.kind = kinds ++ [.endOfInput] := by
  obtain ⟨source, _, scanned⟩ := exists_scan_of_kinds texts
  obtain ⟨noError, same⟩ := scanned 0
  refine ⟨source, _, ?_, same⟩
  rw [tokenize, noError]

def Reader.kinds (reader : Reader) : List Kind :=
  reader.current.kind :: reader.rest.tokens.map Token.kind

theorem Stream.scan_ne_exhausted (offset : Nat) (source : List Char) :
    scan offset source ≠ .exhausted := by
  rw [scan]
  split
  · simp
  · split <;> simp

theorem Reader.exists_start {source : List Char} {tokens : List Token}
    (cut : tokenize source = .ok tokens) :
    ∃ reader, Reader.start source = .ok reader ∧ reader.kinds = tokens.map Token.kind := by
  unfold tokenize at cut
  dsimp only at cut
  unfold Reader.start
  cases scanned : Stream.scan 0 source with
  | token head rest =>
    rw [scanned] at cut
    split at cut <;> cases cut
    exact ⟨_, rfl, rfl⟩
  | ending offset =>
    rw [scanned] at cut
    cases cut
    exact ⟨_, rfl, rfl⟩
  | fault error =>
    rw [scanned] at cut
    cases cut
  | exhausted => exact absurd scanned (Stream.scan_ne_exhausted 0 source)

theorem Passes.exists_of_kinds {kinds : List Kind} {reader : Reader}
    (texts : ∀ kind ∈ kinds, kind ≠ .endOfInput) (same : reader.kinds = kinds ++ [.endOfInput]) :
    ∃ after, Passes kinds reader after ∧ after.current.kind = .endOfInput := by
  induction kinds generalizing reader with
  | nil => exact ⟨reader, .nil, (List.cons.inj same).1⟩
  | cons kind kinds ih =>
    obtain ⟨text, others⟩ := List.forall_mem_cons.mp texts
    obtain ⟨current, ahead⟩ := List.cons.inj same
    -- only the last kind is the end of input, so there is a next token
    have goesOn : reader.current.kind ≠ .endOfInput := by
      rw [current]
      exact text
    have given : ∃ next, Parse.advance reader = .done reader.current next ∧
        next.kinds = kinds ++ [.endOfInput] := by
      unfold Parse.advance
      rw [if_neg goesOn]
      cases rest : reader.rest with
      | token head more =>
        rw [rest] at ahead
        exact ⟨_, rfl, ahead⟩
      | ending offset =>
        rw [rest] at ahead
        exact ⟨_, rfl, ahead⟩
      | fault error =>
        rw [rest] at ahead
        cases kinds <;> cases ahead
      | exhausted =>
        rw [rest] at ahead
        cases kinds <;> cases ahead
    obtain ⟨next, given, sameNext⟩ := given
    obtain ⟨after, passes, ends⟩ := ih others sameNext
    exact ⟨after, current ▸ .cons given passes, ends⟩

end Scriptlet
