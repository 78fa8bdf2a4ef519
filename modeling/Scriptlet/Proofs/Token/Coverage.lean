import Mathlib.Data.List.TakeWhile
import Scriptlet.Grammar.Reader
import Scriptlet.Proofs.Text.Places

/-! How a source is cut: gaps, tokens between them, and what is left where no token can be read. -/

set_option autoImplicit false

namespace Scriptlet

/-- What stands between tokens: blanks, and comments, each up to a line feed or to the end of the
text. What follows the gap is `after`. -/
inductive IsGap (after : List Char) : List Char → Prop where
  | nil : IsGap after []
  | blank {c : Char} {gap : List Char} : isSpace c = true → IsGap after gap → IsGap after (c :: gap)
  | comment {text gap : List Char} : '\n' ∉ text → (∀ c ∈ (gap ++ after).head?, c = '\n') →
      IsGap after gap → IsGap after ('/' :: '/' :: (text ++ gap))

/-- A text that starts neither with a blank nor with a comment. -/
def IsStart (first : Char) (rest : List Char) : Prop :=
  isSpace first = false ∧ (first = '/' → rest.head? ≠ some '/')

theorem isGap_splitTrivia (source : List Char) :
    IsGap (splitTrivia source).2 (splitTrivia source).1 := by
  apply splitTrivia.induct
    (motive_1 := fun source => IsGap (splitTrivia source).2 (splitTrivia source).1)
    (motive_2 := fun source => ∃ text gap, (splitComment source).1 = text ++ gap ∧ '\n' ∉ text ∧
      (∀ c ∈ (gap ++ (splitComment source).2).head?, c = '\n') ∧
      IsGap (splitComment source).2 gap)
  case case1 => exact .nil
  case case2 =>
    rintro rest taken after split ⟨text, gap, whole, noFeed, stops, isGap⟩
    rw [splitTrivia]
    simp only [split] at whole stops isGap ⊢
    subst whole
    exact .comment noFeed stops isGap
  case case3 =>
    intro c rest noComment space taken after split ih
    rw [splitTrivia.eq_3 c rest noComment, if_pos space]
    exact .blank space ih
  case case4 =>
    intro c rest noComment space
    rw [splitTrivia.eq_3 c rest noComment, if_neg space]
    exact .nil
  case case5 => exact ⟨[], [], rfl, List.not_mem_nil, by simp [splitComment], .nil⟩
  case case6 =>
    intro rest taken after split ih
    refine ⟨[], (splitComment ('\n' :: rest)).1, rfl, List.not_mem_nil, ?_, ?_⟩
    · simp [splitComment]
    · rw [splitComment, if_pos rfl]
      exact .blank rfl ih
  -- one more character of the comment; its end is where it was
  case case7 =>
    rintro c rest noFeed taken after split ⟨text, gap, whole, others, stops, isGap⟩
    have later : splitComment (c :: rest) =
        (c :: (splitComment rest).1, (splitComment rest).2) := by rw [splitComment, if_neg noFeed]
    rw [later]
    refine ⟨c :: text, gap, congrArg (c :: ·) whole, ?_, stops, isGap⟩
    rintro (_ | ⟨_, isIn⟩)
    · exact noFeed rfl
    · exact others isIn

theorem isStart_splitTrivia {source : List Char} {first : Char} {rest : List Char}
    (left : (splitTrivia source).2 = first :: rest) : IsStart first rest := by
  revert left
  apply splitTrivia.induct
    (motive_1 := fun source => (splitTrivia source).2 = first :: rest → IsStart first rest)
    (motive_2 := fun source => (splitComment source).2 = first :: rest → IsStart first rest)
  case case4 =>
    intro c others noComment space left
    rw [splitTrivia.eq_3 c others noComment, if_neg space] at left
    cases left
    refine ⟨Bool.eq_false_iff.2 space, fun slash second => ?_⟩
    obtain ⟨more, rfl⟩ := List.head?_eq_some_iff.1 second
    exact noComment more slash rfl
  all_goals simp_all [splitTrivia, splitComment]

namespace StringBody

def text : StringBody → List Char
  | closed _ taken _ => taken
  | unknownEscape _ taken => taken
  | unterminated taken => taken

theorem text_extend (c : Char) (more : List Char) (body : StringBody) :
    (body.extend c more).text = more ++ body.text := by
  cases body <;> rfl

theorem text_append (rest : List Char) : ∃ after, (read rest).text ++ after = rest := by
  fun_induction read rest with
  | case1 => exact ⟨[], rfl⟩
  | case2 after => exact ⟨after, rfl⟩
  | case3 => exact ⟨[], rfl⟩
  | case4 mark rest c _ ih =>
    obtain ⟨after, whole⟩ := ih
    exact ⟨after, by rw [text_extend, List.append_assoc, whole]; rfl⟩
  | case5 mark rest => exact ⟨rest, rfl⟩
  | case6 c rest _ _ _ ih =>
    obtain ⟨after, whole⟩ := ih
    exact ⟨after, by rw [text_extend, List.append_assoc, whole]; rfl⟩

/-- A character with nothing behind it that an escape could take is no backslash. -/
theorem ne_backslash {c : Char} {rest : List Char} (noEnd : c = '\\' → rest = [] → False)
    (noMark : ∀ mark more, c = '\\' → rest = mark :: more → False) : c ≠ '\\' := by
  intro same
  cases rest with
  | nil => exact noEnd same rfl
  | cons mark more => exact noMark mark more same rfl

theorem read_taken_append {rest value taken after : List Char}
    (closed : read rest = .closed value taken after) (other : List Char) :
    read (taken ++ other) = .closed value taken other := by
  fun_induction read rest generalizing value taken after with
  | case1 => cases closed
  | case2 => cases closed; rfl
  | case3 => cases closed
  | case4 mark more c escape ih =>
    cases body : read more <;> rw [body] at closed <;> cases closed
    rw [List.append_assoc]
    show read ('\\' :: mark :: (_ ++ other)) = _
    rw [read, escape]
    simp only [ih body, extend]
  | case5 => cases closed
  | case6 c more noQuote noEnd noMark ih =>
    cases body : read more <;> rw [body] at closed <;> cases closed
    have noBackslash := ne_backslash noEnd noMark
    rw [List.append_assoc, List.singleton_append, read, ih body, extend]
    · exact noQuote
    · exact fun same => absurd same noBackslash
    · exact fun _ _ same => absurd same noBackslash

end StringBody

namespace Lexeme

theorem tail_of_readPair {second : Char} {long : Mark} {short : Lexeme} {rest tail : List Char}
    {cause : LexCause} (found : readPair second long short rest = .fault cause tail)
    (single : ∀ cause tail, short = .fault cause tail → tail = []) : tail = [] := by
  cases rest with
  | nil => exact single cause tail found
  | cons next more =>
    simp only [readPair] at found
    split at found
    · cases found
    · exact single cause tail found

theorem tail_of_readMark {first : Char} {rest tail : List Char} {cause : LexCause}
    (found : readMark first rest = .fault cause tail) : tail = [] := by
  unfold readMark at found
  split at found <;>
    first
    | (cases found; done)
    | (cases found; rfl)
    | exact tail_of_readPair found (by simp)

theorem tail_append_of_fault {first : Char} {rest tail : List Char} {cause : LexCause}
    (found : read first rest = .fault cause tail) : ∃ after, tail ++ after = rest := by
  unfold read at found
  split at found
  · unfold readNumber at found
    dsimp only at found
    split at found <;> cases found
  · split at found
    · cases found
    · split at found
      · obtain ⟨after, whole⟩ := StringBody.text_append rest
        unfold readString at found
        split at found
        · cases found
        · next body =>
          cases found
          rw [body] at whole
          exact ⟨after, whole⟩
        · next body =>
          cases found
          rw [body] at whole
          exact ⟨after, whole⟩
      · rw [tail_of_readMark found]
        exact ⟨rest, rfl⟩

end Lexeme

inductive IsLexeme : Kind → List Char → Prop where
  | number {value : Float} {text : List Char} : (∀ c ∈ text, isDigit c = true ∨ c = '.') →
      IsLexeme (.number value) text
  | word {kind : Kind} {text : List Char} : kind.isWord = true →
      (∀ c ∈ text, isWordPart c = true) → IsLexeme kind text
  | string {value taken : List Char} :
      (∀ after, StringBody.read (taken ++ after) = .closed value taken after) →
      IsLexeme (.string (String.ofList value)) ('"' :: taken)
  | mark (symbol : Mark) : IsLexeme (.mark symbol) symbol.spelling.toList

theorem IsLexeme.ne_endOfInput {kind : Kind} {text : List Char} (isLexeme : IsLexeme kind text) :
    kind ≠ .endOfInput := by
  rintro rfl
  cases isLexeme with
  | word word _ => cases word

namespace Lexeme

variable {first : Char} {rest tail after : List Char} {kind : Kind}

theorem isLexeme_of_readNumber (digit : isDigit first = true)
    (found : readNumber first rest = .token kind tail after) : IsLexeme kind (first :: tail) := by
  have digits (text : List Char) : ∀ c ∈ text.takeWhile isDigit, isDigit c = true :=
    fun _ => List.mem_takeWhile_imp
  unfold readNumber at found
  dsimp only at found
  split at found
  all_goals cases found
  · refine .number fun c isIn => ?_
    simp only [List.mem_cons, List.mem_append] at isIn
    rcases isIn with rfl | isIn | rfl | isIn
    · exact .inl digit
    · exact .inl (digits _ c isIn)
    · exact .inr rfl
    · exact .inl (digits _ c isIn)
  · exact .number (List.forall_mem_cons.2 ⟨.inl digit, fun c isIn => .inl (digits _ c isIn)⟩)

theorem isLexeme_of_readWord (letter : isLetter first = true)
    (found : readWord first rest = .token kind tail after) : IsLexeme kind (first :: tail) := by
  unfold readWord at found
  cases found
  refine .word ?_ (List.forall_mem_cons.2 ⟨by rw [isWordPart, letter, Bool.true_or], ?_⟩)
  · unfold wordKind
    split <;> rfl
  · exact fun _ => List.mem_takeWhile_imp

theorem isLexeme_of_readPair {second : Char} {long : Mark} {short : Lexeme}
    (found : readPair second long short rest = .token kind tail after)
    (spelled : long.spelling.toList = [first, second])
    (single : ∀ kind tail after, short = .token kind tail after → IsLexeme kind (first :: tail)) :
    IsLexeme kind (first :: tail) := by
  cases rest with
  | nil => exact single kind tail after found
  | cons next more =>
    simp only [readPair] at found
    split at found
    · next same =>
      cases found
      rw [same, ← spelled]
      exact .mark long
    · exact single kind tail after found

theorem isLexeme_of_readMark (found : readMark first rest = .token kind tail after) :
    IsLexeme kind (first :: tail) := by
  have single {mark : Mark} (spelled : mark.spelling.toList = [first]) :
      ∀ kind tail after, Lexeme.token (.mark mark) [] rest = .token kind tail after →
        IsLexeme kind (first :: tail) := by
    intro kind tail after same
    cases same
    rw [← spelled]
    exact .mark mark
  unfold readMark at found
  split at found <;>
    first
    | (cases found; done)
    | exact single (by decide) _ _ _ found
    | exact isLexeme_of_readPair found (by decide) (single (by decide))
    | exact isLexeme_of_readPair found (by decide) (by simp)

theorem isLexeme_of_read (found : read first rest = .token kind tail after) :
    IsLexeme kind (first :: tail) := by
  unfold read at found
  split at found
  · exact isLexeme_of_readNumber (by assumption) found
  · split at found
    · exact isLexeme_of_readWord (by assumption) found
    · split at found
      · next quote =>
        unfold readString at found
        split at found
        · next body =>
          cases found
          rw [quote]
          exact .string (StringBody.read_taken_append body)
        all_goals cases found
      · exact isLexeme_of_readMark found

end Lexeme

namespace Stream

/-- How a stream comes from a text that starts at a byte offset: a gap, then a token, the end or a
fault. -/
inductive Cuts : Nat → List Char → Stream → Prop where
  | token {offset start stop : Nat} {gap tail after : List Char} {first : Char} {kind : Kind}
      {stream : Stream} :
      IsGap (first :: (tail ++ after)) gap → IsStart first (tail ++ after) →
      Lexeme.read first (tail ++ after) = .token kind tail after →
      start = offset + byteWidth gap → stop = start + byteWidth (first :: tail) →
      Cuts stop after stream →
      Cuts offset (gap ++ first :: (tail ++ after))
        (.token ⟨kind, String.ofList (first :: tail), ⟨start, stop⟩⟩ stream)
  | ending {offset stop : Nat} {gap : List Char} : IsGap [] gap → stop = offset + byteWidth gap →
      Cuts offset gap (.ending stop)
  | fault {offset start : Nat} {gap tail after : List Char} {first : Char} {cause : LexCause} :
      IsGap (first :: (tail ++ after)) gap → IsStart first (tail ++ after) →
      Lexeme.read first (tail ++ after) = .fault cause tail →
      start = offset + byteWidth gap →
      Cuts offset (gap ++ first :: (tail ++ after))
        (.fault ⟨cause, ⟨start, start + byteWidth (first :: tail)⟩⟩)

theorem cuts_scan (offset : Nat) (source : List Char) : Cuts offset source (scan offset source) := by
  fun_induction scan offset source with
  | case1 offset source start none =>
    have whole := splitTrivia_append source
    have isGap := isGap_splitTrivia source
    rw [none] at whole isGap
    rw [List.append_nil] at whole
    -- all that is left is trivia
    have cuts : Cuts offset (splitTrivia source).1 (.ending start) := .ending isGap rfl
    rwa [whole] at cuts
  | case2 offset source start first rest left kind tail after found stop ih =>
    have whole := splitTrivia_append source
    have isGap := isGap_splitTrivia source
    have isStart := isStart_splitTrivia left
    have split := Lexeme.tail_append_after found
    subst split
    rw [left] at whole isGap
    rw [← whole]
    exact .token isGap isStart found rfl rfl ih
  | case3 offset source start first rest left cause tail found =>
    have whole := splitTrivia_append source
    have isGap := isGap_splitTrivia source
    have isStart := isStart_splitTrivia left
    obtain ⟨after, split⟩ := Lexeme.tail_append_of_fault found
    subst split
    rw [left] at whole isGap
    rw [← whole]
    exact .fault isGap isStart found rfl

/-- What a stream gives when it is asked for one more token, and what is left to ask then. -/
def poll : Stream → Option (Except LexError Token) × Stream
  | token head rest => (some (.ok head), rest)
  | ending offset => (some (.ok (Token.ending offset)), exhausted)
  | fault error => (some (.error error), exhausted)
  | exhausted => (none, exhausted)

/-- What a stream gives when it is asked again after so many times. -/
def answer : Nat → Stream → Option (Except LexError Token)
  | 0, stream => stream.poll.1
  | count + 1, stream => answer count stream.poll.2

theorem answer_exhausted (count : Nat) : answer count exhausted = none := by
  induction count with
  | zero => rfl
  | succ count ih => exact ih

end Stream

/-- A token with the text between it and the token before. -/
structure Piece where
  gap : List Char
  token : Token

namespace Piece

def text (piece : Piece) : List Char := piece.gap ++ piece.token.lexeme.toList

def textOf (pieces : List Piece) : List Char := pieces.flatMap text

theorem textOf_cons (piece : Piece) (pieces : List Piece) :
    textOf (piece :: pieces) = piece.text ++ textOf pieces := rfl

end Piece

/-- A stream of a text after `read`, as pieces in order and a last gap before the end or the fault,
and `rest`, where nothing more is read. -/
structure Coverage (read text : List Char) (stream : Stream) (pieces : List Piece)
    (gap rest : List Char) (last : Except LexError Token) : Prop where
  rebuilt : Piece.textOf pieces ++ (gap ++ rest) = text
  answers : ∀ count, stream.answer count =
    (pieces.map (fun piece => .ok piece.token) ++ [last])[count]?
  tokens : ∀ piece ∈ pieces, piece.token.kind ≠ .endOfInput ∧ piece.token.lexeme ≠ "" ∧
    piece.token.span.start < piece.token.span.stop ∧ piece.token.span.IsWithin (read ++ text) ∧
    piece.token.span.slice? (read ++ text) = some piece.token.lexeme.toList
  advancing : pieces.Pairwise fun earlier later =>
    earlier.token.span.stop ≤ later.token.span.start
  gaps : ∀ before piece after, pieces = before ++ piece :: after →
    piece.token.span.start = byteWidth (read ++ (Piece.textOf before ++ piece.gap)) ∧
    piece.token.span.stop = byteWidth (read ++ (Piece.textOf before ++ piece.text)) ∧
    IsGap (piece.token.lexeme.toList ++ (Piece.textOf after ++ (gap ++ rest))) piece.gap
  lastGap : IsGap rest gap
  ending : ∀ token, last = .ok token →
    rest = [] ∧ token = Token.ending (byteWidth (read ++ text))
  fault : ∀ error, last = .error error →
    rest ≠ [] ∧ error.span.start = byteWidth (read ++ (Piece.textOf pieces ++ gap)) ∧
    error.span.start < error.span.stop ∧ error.span.IsWithin (read ++ text)

namespace Coverage

theorem of_ending {read gap : List Char} {stop : Nat} (isGap : IsGap [] gap)
    (stop_eq : stop = byteWidth (read ++ gap)) :
    Coverage read gap (.ending stop) [] gap [] (.ok (Token.ending stop)) where
  rebuilt := by simp [Piece.textOf]
  answers count := by
    cases count with
    | zero => rfl
    | succ count => exact Stream.answer_exhausted count
  tokens := by simp
  advancing := .nil
  gaps := by simp
  lastGap := isGap
  ending token same := by
    cases same
    exact ⟨rfl, by rw [stop_eq]⟩
  fault error same := by cases same

theorem of_fault {read gap tail after : List Char} {first : Char} {cause : LexCause} {span : Span}
    (isGap : IsGap (first :: (tail ++ after)) gap)
    (start : span.start = byteWidth (read ++ gap))
    (stop : span.stop = byteWidth (read ++ gap ++ first :: tail)) :
    Coverage read (gap ++ first :: (tail ++ after)) (.fault ⟨cause, span⟩) [] gap
      (first :: (tail ++ after)) (.error ⟨cause, span⟩) where
  rebuilt := by simp [Piece.textOf]
  answers count := by
    cases count with
    | zero => rfl
    | succ count => exact Stream.answer_exhausted count
  tokens := by simp
  advancing := .nil
  gaps := by simp
  lastGap := isGap
  ending token same := by cases same
  fault error same := by
    cases same
    have width := byteWidth_append (read ++ gap) (first :: tail)
    have positive := byteWidth_pos (List.cons_ne_nil first tail)
    have within := Span.IsWithin.of_append (read ++ gap) (first :: tail) after
    rw [← start, ← stop, List.append_assoc read gap, List.cons_append] at within
    refine ⟨List.cons_ne_nil _ _, by simp [Piece.textOf, start], ?_, within⟩
    show span.start < span.stop
    omega

theorem cons {read text gap rest : List Char} {stream : Stream} {pieces : List Piece}
    {last : Except LexError Token} {piece : Piece}
    (covers : Coverage (read ++ piece.text) text stream pieces gap rest last)
    (kind : piece.token.kind ≠ .endOfInput) (lexeme : piece.token.lexeme ≠ "")
    (isGap : IsGap (piece.token.lexeme.toList ++ text) piece.gap)
    (start : piece.token.span.start = byteWidth (read ++ piece.gap))
    (stop : piece.token.span.stop = byteWidth (read ++ piece.text)) :
    Coverage read (piece.text ++ text) (.token piece.token stream) (piece :: pieces) gap rest
      last := by
  have whole : read ++ (piece.text ++ text) = read ++ piece.text ++ text :=
    (List.append_assoc read piece.text text).symm
  exact {
    rebuilt := by
      rw [Piece.textOf_cons, List.append_assoc, covers.rebuilt]
    answers := by
      intro count
      cases count with
      | zero => rfl
      | succ count => exact covers.answers count
    tokens := by
      intro found isIn
      rcases List.mem_cons.1 isIn with rfl | later
      · have slice := Span.slice?_append (read ++ found.gap) found.token.lexeme.toList text
        have within := Span.IsWithin.of_append (read ++ found.gap) found.token.lexeme.toList text
        have same : read ++ found.gap ++ found.token.lexeme.toList = read ++ found.text :=
          List.append_assoc read found.gap found.token.lexeme.toList
        rw [← List.append_assoc (read ++ found.gap), same, ← whole, ← start, ← stop]
          at slice within
        refine ⟨kind, lexeme, ?_, within, slice⟩
        rw [start, stop, ← same, byteWidth_append (read ++ found.gap)]
        have positive := byteWidth_pos fun empty => lexeme (String.toList_eq_nil_iff.1 empty)
        omega
      · rw [whole]
        exact covers.tokens found later
    advancing := by
      refine List.pairwise_cons.2 ⟨fun later isIn => ?_, covers.advancing⟩
      obtain ⟨before, after, split⟩ := List.append_of_mem isIn
      rw [(covers.gaps before later after split).1, stop, byteWidth_append (read ++ piece.text)]
      exact Nat.le_add_right _ _
    gaps := by
      -- either the piece is the one in front, and nothing comes before it, or it is one of the
      -- others
      rintro (_ | ⟨first, before⟩) found after split
      · cases split
        rw [← covers.rebuilt] at isGap
        exact ⟨start, stop, isGap⟩
      · obtain ⟨rfl, later⟩ := List.cons.inj split
        obtain ⟨starts, stops, between⟩ := covers.gaps before found after later
        rw [List.append_assoc, ← List.append_assoc piece.text] at starts stops
        exact ⟨starts, stops, between⟩
    lastGap := covers.lastGap
    ending := by
      rw [whole]
      exact covers.ending
    fault := by
      intro error isLast
      obtain ⟨left, starts, nonempty, within⟩ := covers.fault error isLast
      rw [List.append_assoc, ← List.append_assoc piece.text] at starts
      rw [whole]
      exact ⟨left, starts, nonempty, within⟩ }

theorem of_cuts {read text : List Char} {offset : Nat} {stream : Stream}
    (cuts : Stream.Cuts offset text stream) (reached : offset = byteWidth read) :
    ∃ pieces gap rest last, Coverage read text stream pieces gap rest last := by
  induction cuts generalizing read with
  | @token offset start stop gap tail after first kind stream isGap isStart found start_eq stop_eq
      cuts ih =>
    have lexeme : (String.ofList (first :: tail)).toList = first :: tail := String.toList_ofList
    have starts : start = byteWidth (read ++ gap) := by
      rw [start_eq, reached, byteWidth_append]
    have stops : stop = byteWidth (read ++ (gap ++ first :: tail)) := by
      rw [stop_eq, starts, ← List.append_assoc, byteWidth_append (read ++ gap)]
    let piece : Piece := ⟨gap, ⟨kind, String.ofList (first :: tail), ⟨start, stop⟩⟩⟩
    have text : piece.text = gap ++ first :: tail := by rw [Piece.text, lexeme]
    -- the next piece starts where this one stops
    have next : stop = byteWidth (read ++ piece.text) := by rw [text, stops]
    obtain ⟨pieces, lastGap, rest, last, covers⟩ := ih next
    refine ⟨piece :: pieces, lastGap, rest, last, ?_⟩
    have whole := cons covers (Lexeme.isLexeme_of_read found).ne_endOfInput ?_ ?_ starts ?_
    · rwa [text, List.append_assoc] at whole
    · intro empty
      have nothing := String.toList_eq_nil_iff.2 empty
      rw [lexeme] at nothing
      cases nothing
    · show IsGap ((String.ofList (first :: tail)).toList ++ after) gap
      rw [lexeme]
      exact isGap
    · rw [text]
      exact stops
  | @ending offset stop gap isGap stop_eq =>
    exact ⟨[], gap, [], _, of_ending isGap (by rw [stop_eq, reached, byteWidth_append])⟩
  | @fault offset start gap tail after first cause isGap isStart found start_eq =>
    refine ⟨[], gap, _, _, of_fault isGap ?_ ?_⟩
    · show start = _
      rw [start_eq, reached, byteWidth_append]
    · show start + _ = _
      rw [start_eq, reached, byteWidth_append (read ++ gap), byteWidth_append]

end Coverage

/-- Every source is covered: pieces, a gap, and either its end or a fault. -/
theorem Stream.scan_covers_source (source : List Char) :
    ∃ pieces gap rest last, Coverage [] source (Stream.scan 0 source) pieces gap rest last :=
  Coverage.of_cuts (Stream.cuts_scan 0 source) rfl

end Scriptlet
