import Scriptlet.Proofs.Token.Coverage

/-! What follows a gap or a token matters to it by its first character at most. -/

set_option autoImplicit false

namespace Scriptlet

/-! Trivia -/

theorem splitTrivia_of_isStart {first : Char} {rest : List Char} (isStart : IsStart first rest) :
    splitTrivia (first :: rest) = ([], first :: rest) := by
  rw [splitTrivia.eq_3, isStart.1, if_neg Bool.false_ne_true]
  rintro more slash rfl
  exact isStart.2 slash rfl

theorem splitComment_append {text after : List Char} (noFeed : '\n' ∉ text)
    (stops : ∀ c ∈ after.head?, c = '\n') :
    splitComment (text ++ after) = (text ++ (splitTrivia after).1, (splitTrivia after).2) := by
  induction text with
  | nil =>
    cases after with
    | nil => simp [splitComment, splitTrivia]
    | cons c rest =>
      obtain rfl := stops c rfl
      rw [List.nil_append, List.nil_append, splitComment, if_pos rfl, splitTrivia.eq_3]
      · rfl
      · intro more same
        cases same
  | cons c text ih =>
    obtain ⟨other, later⟩ := not_or.1 (mt List.mem_cons.2 noFeed)
    rw [List.cons_append, splitComment, if_neg (Ne.symm other), ih later]
    rfl

theorem splitTrivia_append_of_isGap {gap after : List Char} (isGap : IsGap after gap)
    (stops : splitTrivia after = ([], after)) : splitTrivia (gap ++ after) = (gap, after) := by
  induction isGap with
  | nil => exact stops
  | @blank c gap space _ ih =>
    rw [List.cons_append, splitTrivia.eq_3, if_pos space, ih]
    rintro more rfl
    cases space
  | @comment text gap noFeed feed _ ih =>
    rw [List.cons_append, List.cons_append, List.append_assoc, splitTrivia,
      splitComment_append noFeed feed, ih]

namespace IsGap

theorem congr {gap after other : List Char} (isGap : IsGap after gap) (starts : after ≠ [])
    (stops : ∀ c ∈ after.head?, c ≠ '\n') : IsGap other gap := by
  induction isGap with
  | nil => exact .nil
  | blank space _ ih => exact .blank space ih
  | @comment text gap noFeed feed _ ih =>
    refine .comment noFeed (fun c isHead => ?_) ih
    -- a comment does not reach to a text that starts otherwise, so a blank follows it
    cases gap with
    | nil =>
      obtain ⟨c, rest, rfl⟩ := List.exists_cons_of_ne_nil starts
      exact absurd (feed c rfl) (stops c rfl)
    | cons => exact feed c isHead

theorem append_feed {gap more after : List Char} (isGap : IsGap [] gap) (second : IsGap after more) :
    IsGap after (gap ++ '\n' :: more) := by
  induction isGap with
  | nil => exact .blank rfl second
  | blank space _ ih => exact .blank space ih
  | @comment text gap noFeed feed _ ih =>
    rw [List.cons_append, List.cons_append, List.append_assoc]
    refine .comment noFeed (fun c isHead => ?_) ih
    cases gap with
    | nil => exact (Option.some.inj isHead).symm
    | cons => exact feed c isHead

end IsGap

/-! What may follow a token -/

/-- Where `after` stands behind a token `other` may: it is empty, or starts with a blank, or with the
same character. -/
def Replaces (other after : List Char) : Prop :=
  ∀ c ∈ other.head?, isSpace c = true ∨ c ∈ after.head?

namespace Replaces

theorem feed (rest after : List Char) : Replaces ('\n' :: rest) after := by
  rintro c (_ | _)
  exact .inl rfl

theorem of_append {after rest : List Char} : Replaces after (after ++ rest) := by
  intro c isHead
  cases after with
  | nil => cases isHead
  | cons => exact .inr isHead

theorem append_left {other after : List Char} (replaces : Replaces other after)
    (text : List Char) : Replaces (text ++ other) (text ++ after) := by
  cases text with
  | nil => exact replaces
  | cons => exact fun c isHead => .inr isHead

theorem append_feed (after rest : List Char) : Replaces (after ++ '\n' :: rest) after := by
  cases after with
  | nil => exact feed rest []
  | cons => exact fun c isHead => .inr isHead

variable {holds : Char → Bool} {other after : List Char}

theorem not_head (replaces : Replaces other after) (space : ∀ c, isSpace c = true → holds c = false)
    (stops : ∀ c ∈ after.head?, holds c = false) : ∀ c ∈ other.head?, holds c = false :=
  fun c isHead => (replaces c isHead).elim (space c) (stops c)

end Replaces

theorem IsStart.replace {first : Char} {rest other : List Char} (isStart : IsStart first rest)
    (replaces : Replaces other rest) : IsStart first other := by
  refine ⟨isStart.1, fun slash second => ?_⟩
  rcases replaces '/' second with space | same
  · cases space
  · exact isStart.2 slash same

/-- The gap before a token does not depend on what follows the token. -/
theorem IsGap.of_isStart {first : Char} {rest other gap : List Char}
    (isGap : IsGap (first :: rest) gap) (isStart : IsStart first rest) :
    IsGap (first :: other) gap := by
  refine isGap.congr (List.cons_ne_nil _ _) ?_
  rintro c (_ | _) rfl
  cases isStart.1

/-! No blank is part of a number or of a word -/

theorem isDigit_of_isSpace (c : Char) (space : isSpace c = true) : isDigit c = false := by
  simp only [isSpace, Bool.or_eq_true, beq_iff_eq] at space
  rcases space with ((rfl | rfl) | rfl) | rfl <;> rfl

theorem isWordPart_of_isSpace (c : Char) (space : isSpace c = true) : isWordPart c = false := by
  simp only [isSpace, Bool.or_eq_true, beq_iff_eq] at space
  rcases space with ((rfl | rfl) | rfl) | rfl <;> rfl

theorem takeWhile_append_of_stops {holds : Char → Bool} {text after : List Char}
    (all : ∀ c ∈ text, holds c = true) (stops : ∀ c ∈ after.head?, holds c = false) :
    (text ++ after).takeWhile holds = text ∧ (text ++ after).dropWhile holds = after := by
  rw [List.takeWhile_append_of_pos all, List.dropWhile_append_of_pos all]
  cases after with
  | nil => simp
  | cons c rest => simp [stops c rfl]

theorem head?_dropWhile_stops (holds : Char → Bool) (text : List Char) :
    ∀ c ∈ (text.dropWhile holds).head?, holds c = false := by
  intro c isHead
  have stops := List.head?_dropWhile_not holds text
  rw [Option.mem_def.1 isHead] at stops
  simpa using stops

namespace Lexeme

variable {first : Char} {tail after other : List Char} {kind : Kind}

/-! Numbers and words end where the next character is none of theirs -/

theorem readNumber_whole (digits : ∀ c ∈ tail, isDigit c = true)
    (stops : ∀ c ∈ after.head?, isDigit c = false) (noPoint : '.' ∉ after.head?) :
    readNumber first (tail ++ after) =
      .token (.number (Number.ofDigits (first :: tail) [])) tail after := by
  obtain ⟨taken, dropped⟩ := takeWhile_append_of_stops digits stops
  rw [readNumber, taken, dropped]
  split
  · exact absurd rfl noPoint
  · rfl

theorem readNumber_point {fraction : List Char} (digits : ∀ c ∈ tail, isDigit c = true)
    (others : ∀ c ∈ fraction, isDigit c = true) (stops : ∀ c ∈ after.head?, isDigit c = false) :
    readNumber first (tail ++ '.' :: (fraction ++ after)) =
      .token (.number (Number.ofDigits (first :: tail) fraction)) (tail ++ '.' :: fraction)
        after := by
  obtain ⟨taken, dropped⟩ := takeWhile_append_of_stops others stops
  have point : ∀ c ∈ ('.' :: (fraction ++ after)).head?, isDigit c = false := by
    rintro c (_ | _)
    rfl
  obtain ⟨whole, rest⟩ := takeWhile_append_of_stops digits point
  rw [readNumber, whole, rest]
  simp only [taken, dropped]

theorem readNumber_cases (found : readNumber first (tail ++ after) = .token kind tail after) :
    (∀ c ∈ after.head?, isDigit c = false) ∧
      (((∀ c ∈ tail, isDigit c = true) ∧ '.' ∉ after.head?) ∨
        ∃ whole fraction, tail = whole ++ '.' :: fraction ∧ (∀ c ∈ whole, isDigit c = true) ∧
          ∀ c ∈ fraction, isDigit c = true) := by
  have digits (text : List Char) : ∀ c ∈ text.takeWhile isDigit, isDigit c = true :=
    fun _ => List.mem_takeWhile_imp
  unfold readNumber at found
  dsimp only at found
  split at found
  · simp only [token.injEq] at found
    obtain ⟨_, text, rest⟩ := found
    exact ⟨rest ▸ head?_dropWhile_stops _ _, .inr ⟨_, _, text.symm, digits _, digits _⟩⟩
  · next noPoint =>
    simp only [token.injEq] at found
    obtain ⟨_, text, rest⟩ := found
    refine ⟨rest ▸ head?_dropWhile_stops _ _, .inl ⟨text ▸ digits _, fun point => ?_⟩⟩
    obtain ⟨more, isPoint⟩ := List.head?_eq_some_iff.1 point
    exact noPoint more (rest.trans isPoint)

theorem readWord_whole (parts : ∀ c ∈ tail, isWordPart c = true)
    (stops : ∀ c ∈ after.head?, isWordPart c = false) :
    readWord first (tail ++ after) =
      .token (wordKind (String.ofList (first :: tail))) tail after := by
  obtain ⟨taken, dropped⟩ := takeWhile_append_of_stops parts stops
  rw [readWord, taken, dropped]

theorem readWord_cases (found : readWord first (tail ++ after) = .token kind tail after) :
    (∀ c ∈ tail, isWordPart c = true) ∧ ∀ c ∈ after.head?, isWordPart c = false := by
  simp only [readWord, token.injEq] at found
  obtain ⟨_, text, rest⟩ := found
  exact ⟨text ▸ fun _ => List.mem_takeWhile_imp, rest ▸ head?_dropWhile_stops _ _⟩

/-! The same token is read where its text is followed by another -/

theorem readNumber_of_replaces (found : readNumber first (tail ++ after) = .token kind tail after)
    (replaces : Replaces other after) :
    readNumber first (tail ++ other) = .token kind tail other := by
  obtain ⟨stops, parts⟩ := readNumber_cases found
  have ends := replaces.not_head isDigit_of_isSpace stops
  rcases parts with ⟨digits, noPoint⟩ | ⟨whole, fraction, rfl, digits, others⟩
  · rw [readNumber_whole digits stops noPoint] at found
    simp only [token.injEq] at found
    rw [readNumber_whole digits ends, found.1]
    intro point
    rcases replaces '.' point with space | same
    · cases space
    · exact noPoint same
  · rw [List.append_assoc, List.cons_append] at found ⊢
    rw [readNumber_point digits others stops] at found
    simp only [token.injEq] at found
    rw [readNumber_point digits others ends, found.1]

theorem readWord_of_replaces (found : readWord first (tail ++ after) = .token kind tail after)
    (replaces : Replaces other after) :
    readWord first (tail ++ other) = .token kind tail other := by
  obtain ⟨parts, stops⟩ := readWord_cases found
  rw [readWord_whole parts stops] at found
  simp only [token.injEq] at found
  rw [readWord_whole parts (replaces.not_head isWordPart_of_isSpace stops), found.1]

theorem readPair_of_replaces {second : Char} {long : Mark} (short : List Char → Lexeme)
    (notSpace : isSpace second = false)
    (single : ∀ tail {after : List Char}, short (tail ++ after) = .token kind tail after →
      ∀ other, short (tail ++ other) = .token kind tail other)
    (found : readPair second long (short (tail ++ after)) (tail ++ after) = .token kind tail after)
    (replaces : Replaces other after) :
    readPair second long (short (tail ++ other)) (tail ++ other) = .token kind tail other := by
  cases tail with
  | nil =>
    -- one character alone was read, so the second one does not follow it
    have alone : short after = .token kind [] after ∧ second ∉ after.head? := by
      cases after with
      | nil => exact ⟨found, by simp⟩
      | cons c rest =>
        simp only [List.nil_append, readPair] at found
        split at found
        · simp at found
        · next differs => exact ⟨found, by simpa using differs⟩
    have short := single [] alone.1 other
    cases other with
    | nil => exact short
    | cons c rest =>
      have differs : c ≠ second := by
        rintro rfl
        rcases replaces c rfl with space | same
        · rw [notSpace] at space
          cases space
        · exact alone.2 same
      simpa only [List.nil_append, readPair, if_neg differs] using short
  | cons c more =>
    simp only [List.cons_append, readPair] at found ⊢
    split at found
    · next same =>
      simp only [token.injEq, List.cons.injEq] at found
      obtain ⟨rfl, ⟨_, rfl⟩, _⟩ := found
      rw [if_pos same, List.nil_append]
    · next differs =>
      rw [if_neg differs]
      exact single (c :: more) found other

theorem readMark_of_replaces (found : readMark first (tail ++ after) = .token kind tail after)
    (replaces : Replaces other after) :
    readMark first (tail ++ other) = .token kind tail other := by
  have single {mark : Mark} (tail : List Char) {after : List Char}
      (found : Lexeme.token (.mark mark) [] (tail ++ after) = .token kind tail after)
      (other : List Char) :
      Lexeme.token (.mark mark) [] (tail ++ other) = .token kind tail other := by
    simp only [token.injEq] at found ⊢
    obtain ⟨same, rfl, _⟩ := found
    exact ⟨same, rfl, rfl⟩
  unfold readMark at found
  split at found <;>
    first
    | exact single tail found other
    | exact readPair_of_replaces (fun rest => .token (.mark _) [] rest) rfl single found replaces
    | exact readPair_of_replaces (fun _ => .fault _ []) rfl (by simp) found replaces
    | cases found

/-- What follows a token matters to it by its first character at most. -/
theorem read_of_replaces (found : read first (tail ++ after) = .token kind tail after)
    (replaces : Replaces other after) : read first (tail ++ other) = .token kind tail other := by
  unfold read at found ⊢
  split
  · next digit =>
    rw [if_pos digit] at found
    exact readNumber_of_replaces found replaces
  · next noDigit =>
    rw [if_neg noDigit] at found
    split
    · next letter =>
      rw [if_pos letter] at found
      exact readWord_of_replaces found replaces
    · next noLetter =>
      rw [if_neg noLetter] at found
      split
      · next quote =>
        rw [if_pos quote] at found
        unfold readString at found ⊢
        split at found
        · next value taken rest body =>
          cases found
          rw [StringBody.read_taken_append body]
        all_goals cases found
      · next noQuote =>
        rw [if_neg noQuote] at found
        exact readMark_of_replaces found replaces

end Lexeme

end Scriptlet
