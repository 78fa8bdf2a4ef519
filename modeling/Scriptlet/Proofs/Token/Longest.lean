import Scriptlet.Proofs.Token.Escapes
import Scriptlet.Proofs.Token.Munch

/-! Wherever a source is cut, the longest match is taken, and a string literal as far as it goes. -/

set_option autoImplicit false

namespace Scriptlet

namespace Lexeme

variable {first : Char} {rest : List Char}

/-- Elsewhere than at a quote there is a winner whose kind the token has, or nothing matches. -/
theorem read_cases (isStart : IsStart first rest) (noQuote : first ≠ '"') :
    (∃ (pattern : Pattern) (tail after : List Char) (kind : Kind), rest = tail ++ after ∧
        pattern.Wins (first :: tail) after ∧ pattern.kind? (first :: tail) = some kind ∧
        read first rest = .token kind tail after) ∨
      read first rest = .fault (.unexpectedCharacter first) [] ∧
        ∀ (pattern : Pattern) (part : List Char), part <+: first :: rest → part ∉ pattern.texts := by
  cases found : read first rest with
  | token kind tail after =>
    have whole := tail_append_after found
    subst whole
    obtain ⟨pattern, wins, known⟩ := exists_wins_of_token isStart noQuote found
    exact .inl ⟨pattern, tail, after, kind, rfl, wins, known, rfl⟩
  | fault cause tail =>
    obtain ⟨rfl, rfl, nothing⟩ := unexpected_of_fault isStart noQuote found
    exact .inr ⟨rfl, nothing⟩

end Lexeme

namespace Stream

def taken (start : Nat) (kind : Kind) (part after : List Char) : Stream :=
  .token ⟨kind, String.ofList part, ⟨start, start + byteWidth part⟩⟩
    (scan (start + byteWidth part) after)

theorem scan_of_token {first : Char} {tail after : List Char} {kind : Kind}
    (isStart : IsStart first (tail ++ after))
    (found : Lexeme.read first (tail ++ after) = .token kind tail after) (start : Nat) :
    scan start (first :: (tail ++ after)) = taken start kind (first :: tail) after := by
  have cuts : Cuts start ([] ++ first :: (tail ++ after)) (taken start kind (first :: tail) after) :=
    .token .nil isStart found rfl rfl (cuts_scan _ after)
  exact cuts.eq_scan.symm

theorem scan_of_fault {first : Char} {tail after : List Char} {cause : LexCause}
    (isStart : IsStart first (tail ++ after))
    (found : Lexeme.read first (tail ++ after) = .fault cause tail) (start : Nat) :
    scan start (first :: (tail ++ after)) =
      .fault ⟨cause, ⟨start, start + byteWidth (first :: tail)⟩⟩ := by
  have cuts : Cuts start ([] ++ first :: (tail ++ after)) _ := .fault .nil isStart found rfl
  exact cuts.eq_scan.symm

/-! At a quote -/

theorem isStart_quote (rest : List Char) : IsStart '"' rest := ⟨rfl, fun slash => by cases slash⟩

section

variable {inside value : List Char} (start : Nat)

theorem scan_of_closed (unescapes : Unescapes inside value) (after : List Char) :
    scan start ('"' :: (inside ++ '"' :: after)) =
      taken start (.string (String.ofList value)) ('"' :: (inside ++ ['"'])) after := by
  have body := StringBody.read_of_closed unescapes after
  have found : Lexeme.read '"' (inside ++ ['"'] ++ after) =
      .token (.string (String.ofList value)) (inside ++ ['"']) after := by
    change Lexeme.readString _ = _
    rw [List.append_assoc, Lexeme.readString, List.singleton_append, body]
  have same := scan_of_token (isStart_quote _) found start
  rwa [List.append_assoc, List.singleton_append] at same

theorem scan_of_unknown {mark : Char} (unescapes : Unescapes inside value)
    (unknown : ∀ c, (mark, c) ∉ Quoted.escapes) (after : List Char) :
    scan start ('"' :: (inside ++ '\\' :: mark :: after)) = .fault
      ⟨.unknownEscape mark, ⟨start, start + byteWidth ('"' :: (inside ++ ['\\', mark]))⟩⟩ := by
  have body := StringBody.read_of_unknown unescapes unknown after
  have found : Lexeme.read '"' (inside ++ ['\\', mark] ++ after) =
      .fault (.unknownEscape mark) (inside ++ ['\\', mark]) := by
    change Lexeme.readString _ = _
    rw [List.append_assoc, Lexeme.readString, List.cons_append, List.singleton_append, body]
  have same := scan_of_fault (isStart_quote _) found start
  rwa [List.append_assoc, List.cons_append, List.singleton_append] at same

theorem scan_of_unterminated {rest : List Char} (body : StringBody.read rest = .unterminated rest) :
    scan start ('"' :: rest) =
      .fault ⟨.unterminatedString, ⟨start, start + byteWidth ('"' :: rest)⟩⟩ := by
  have found : Lexeme.read '"' (rest ++ []) = .fault .unterminatedString rest := by
    change Lexeme.readString _ = _
    rw [List.append_nil, Lexeme.readString, body]
  have same := scan_of_fault (isStart_quote _) found start
  rwa [List.append_nil] at same

theorem scan_quote_cases (rest : List Char) :
    (∃ token more, scan start ('"' :: rest) = .token token more) ∨
      ∃ fault, scan start ('"' :: rest) = .fault fault ∧
        ∀ c, fault.cause ≠ .unexpectedCharacter c := by
  rcases StringBody.read_cases rest with ⟨inside, value, after, unescapes, rfl⟩ |
    ⟨inside, value, mark, after, unescapes, unknown, rfl⟩ | body
  · exact .inl ⟨_, _, scan_of_closed start unescapes after⟩
  · exact .inr ⟨_, scan_of_unknown start unescapes unknown after, fun c same => by cases same⟩
  · exact .inr ⟨_, scan_of_unterminated start body, fun c same => by cases same⟩

end

/-- How a text without trivia in front, up to the end of a source, is cut at its first character. -/
structure Munches (start : Nat) (text : List Char) (stream : Stream) : Prop where
  noTrivia : ∀ part : List Char, part <+: text →
    part ∉ Pattern.blanks.texts ∧ part ∉ Pattern.comment.texts
  ending : text = [] ↔ stream = .ending start
  winner : ∀ (pattern : Pattern) (part after : List Char) (kind : Kind), text = part ++ after →
    pattern.Wins part after → pattern.kind? part = some kind → stream = taken start kind part after
  hasWinner : ∀ (token : Token) (rest : Stream), stream = .token token rest →
    ∃ (pattern : Pattern) (part after : List Char), text = part ++ after ∧
      pattern.Wins part after ∧ (pattern.kind? part = some token.kind ∨ pattern = .quote)
  word : ∀ part after : List Char, text = part ++ after → part ∈ Pattern.word.texts →
    (∀ longer ∈ Pattern.word.texts, longer <+: text → longer.length ≤ part.length) →
    ∃ kind, stream = taken start kind part after ∧
      (∀ reserved, kind = .keyword reserved ↔ reserved.spelling = String.ofList part) ∧
      (kind.isKeyword = true ∨ kind = .identifier (String.ofList part))
  unexpected : ∀ (c : Char) (span : Span), stream = .fault ⟨.unexpectedCharacter c, span⟩ ↔
    text.head? = some c ∧ span = ⟨start, start + c.utf8Size⟩ ∧
      ∀ (pattern : Pattern) (part : List Char), part <+: text → part ∉ pattern.texts
  closedString : ∀ inside value after : List Char, text = '"' :: (inside ++ '"' :: after) →
    Unescapes inside value →
    stream = taken start (.string (String.ofList value)) ('"' :: (inside ++ ['"'])) after
  unknownEscape : ∀ (inside value : List Char) (mark : Char) (after : List Char),
    text = '"' :: (inside ++ '\\' :: mark :: after) → Unescapes inside value →
    (∀ c, (mark, c) ∉ Quoted.escapes) →
    stream = .fault
      ⟨.unknownEscape mark, ⟨start, start + byteWidth ('"' :: (inside ++ ['\\', mark]))⟩⟩
  unterminated : ∀ rest : List Char, text = '"' :: rest →
    (∀ inside value after, Unescapes inside value → rest ≠ inside ++ '"' :: after) →
    (∀ inside value mark after, Unescapes inside value → (∀ c, (mark, c) ∉ Quoted.escapes) →
      rest ≠ inside ++ '\\' :: mark :: after) →
    stream = .fault ⟨.unterminatedString, ⟨start, start + byteWidth text⟩⟩

namespace Munches

variable {start : Nat} {first : Char} {rest tail after : List Char}

theorem of_nil (start : Nat) : Munches start [] (.ending start) where
  noTrivia part isPrefix := by
    rw [List.prefix_nil.1 isPrefix]
    constructor
    · intro matched
      obtain ⟨_, _, same, _⟩ := Pattern.mem_blanks.1 matched
      cases same
    · intro matched
      obtain ⟨_, same, _⟩ := Pattern.mem_comment.1 matched
      cases same
  ending := iff_of_true rfl rfl
  winner pattern part after kind whole wins _ := by
    obtain ⟨c, rest, same, _⟩ := Pattern.exists_begins wins.matched
    rw [same] at whole
    cases whole
  hasWinner token rest same := by cases same
  word part after whole matched _ := by
    obtain ⟨c, rest, same, _⟩ := Pattern.exists_begins matched
    rw [same] at whole
    cases whole
  unexpected c span := by simp
  closedString inside value after same := by cases same
  unknownEscape inside value mark after same := by cases same
  unterminated rest same := by cases same

theorem of_winner {pattern : Pattern} {kind : Kind} (isStart : IsStart first (tail ++ after))
    (noQuote : first ≠ '"') (wins : pattern.Wins (first :: tail) after)
    (known : pattern.kind? (first :: tail) = some kind) :
    Munches start (first :: (tail ++ after)) (taken start kind (first :: tail) after) where
  noTrivia part := Pattern.no_trivia_of_isStart isStart
  ending := iff_of_false (List.cons_ne_nil _ _) fun ends => by cases ends
  winner other part more kind whole winsToo knownToo := by
    obtain ⟨rfl, rfl, rfl⟩ := wins.unique isStart rfl winsToo whole.symm
    rw [Option.some.inj (known.symm.trans knownToo)]
  hasWinner token rest same := by
    cases same
    exact ⟨pattern, first :: tail, after, rfl, wins, .inl known⟩
  word part more whole matched longest := by
    have isPrefix : part <+: first :: (tail ++ after) := whole ▸ List.prefix_append part more
    have taken : first :: tail <+: first :: (tail ++ after) := ⟨after, rfl⟩
    have letter : isLetter first = true := Pattern.begins_of_isPrefix matched isPrefix
    rcases Pattern.word_or_keyword_of_begins (Pattern.begins_of_isPrefix wins.matched taken) letter
      with rfl | ⟨found, rfl⟩
    -- the winner is a word, and neither it nor the other word is longer
    all_goals
      have shorter := wins.longest .word part matched isPrefix
    · have longer := longest _ wins.matched taken
      obtain ⟨rfl, rfl⟩ := List.append_inj (show part ++ more = first :: tail ++ after from whole.symm)
        (Nat.le_antisymm shorter longer)
      cases known
      refine ⟨_, rfl, fun reserved => iff_of_false (fun same => by cases same) fun spelled => ?_, .inr rfl⟩
      refine wins.unreserved rfl reserved ?_
      rw [Pattern.texts, Pattern.mem_singleton, spelled, String.toList_ofList]
    · have spelled := Pattern.mem_singleton.1 wins.matched
      have longer := longest _ (spelled ▸ Pattern.keyword_mem_word found) taken
      obtain ⟨rfl, rfl⟩ := List.append_inj (show part ++ more = first :: tail ++ after from whole.symm)
        (Nat.le_antisymm shorter longer)
      cases known
      refine ⟨_, rfl, fun reserved => ?_, .inl rfl⟩
      rw [spelled, String.ofList_toList]
      constructor
      · intro same
        cases same
        rfl
      · intro same
        rw [Keyword.spelling_injective same]
  unexpected c span := by
    refine iff_of_false (fun same => by cases same) fun found => ?_
    exact found.2.2 pattern (first :: tail) ⟨after, rfl⟩ wins.matched
  closedString inside value after same := absurd (List.cons.inj same).1 noQuote
  unknownEscape inside value mark after same := absurd (List.cons.inj same).1 noQuote
  unterminated rest same := absurd (List.cons.inj same).1 noQuote

theorem of_nothing (isStart : IsStart first rest) (noQuote : first ≠ '"')
    (nothing : ∀ (pattern : Pattern) (part : List Char), part <+: first :: rest →
      part ∉ pattern.texts) :
    Munches start (first :: rest)
      (.fault ⟨.unexpectedCharacter first, ⟨start, start + first.utf8Size⟩⟩) where
  noTrivia part := Pattern.no_trivia_of_isStart isStart
  ending := iff_of_false (List.cons_ne_nil _ _) nofun
  winner pattern part after kind whole wins _ :=
    absurd wins.matched (nothing pattern part (whole ▸ List.prefix_append part after))
  hasWinner token rest same := by cases same
  word part after whole matched _ :=
    absurd matched (nothing .word part (whole ▸ List.prefix_append part after))
  unexpected c span := by
    constructor
    · intro same
      cases same
      exact ⟨rfl, rfl, nothing⟩
    · rintro ⟨same, rfl, _⟩
      cases same
      rfl
  closedString inside value after same := absurd (List.cons.inj same).1 noQuote
  unknownEscape inside value mark after same := absurd (List.cons.inj same).1 noQuote
  unterminated rest same := absurd (List.cons.inj same).1 noQuote

theorem of_quote (start : Nat) (rest : List Char) :
    Munches start ('"' :: rest) (scan start ('"' :: rest)) where
  noTrivia part := Pattern.no_trivia_of_isStart (isStart_quote rest)
  ending := by
    refine iff_of_false (List.cons_ne_nil _ _) fun ends => ?_
    rcases scan_quote_cases start rest with ⟨token, more, same⟩ | ⟨fault, same, _⟩
    all_goals
      rw [same] at ends
      cases ends
  winner pattern part after kind whole wins known := by
    obtain ⟨rfl, _, _⟩ := wins.unique (isStart_quote rest) whole.symm (Pattern.quote_wins rest) rfl
    cases known
  hasWinner token _ _ := ⟨.quote, ['"'], rest, rfl, Pattern.quote_wins rest, .inr rfl⟩
  word part after whole matched _ := by
    have letter : isLetter '"' = true :=
      Pattern.begins_of_isPrefix matched (whole ▸ List.prefix_append part after)
    cases letter
  unexpected c span := by
    have matched : ['"'] ∈ Pattern.quote.texts := rfl
    refine iff_of_false (fun found => ?_) fun found => found.2.2 .quote ['"'] ⟨rest, rfl⟩ matched
    rcases scan_quote_cases start rest with ⟨token, more, same⟩ | ⟨fault, same, other⟩
    · rw [same] at found
      cases found
    · rw [same] at found
      cases found
      exact other c rfl
  closedString inside value after same unescapes := by
    obtain ⟨_, rfl⟩ := List.cons.inj same
    exact scan_of_closed start unescapes after
  unknownEscape inside value mark after same unescapes unknown := by
    obtain ⟨_, rfl⟩ := List.cons.inj same
    exact scan_of_unknown start unescapes unknown after
  unterminated others same noQuote noUnknown := by
    obtain ⟨_, rfl⟩ := List.cons.inj same
    -- a body that has neither a closing quote nor an unknown escape is never closed
    rcases StringBody.read_cases rest with ⟨inside, value, after, unescapes, split⟩ |
      ⟨inside, value, mark, after, unescapes, unknown, split⟩ | body
    · exact absurd split (noQuote inside value after unescapes)
    · exact absurd split (noUnknown inside value mark after unescapes unknown)
    · exact scan_of_unterminated start body

theorem of_isStart (isStart : IsStart first rest) (start : Nat) :
    Munches start (first :: rest) (scan start (first :: rest)) := by
  by_cases quote : first = '"'
  · rw [quote]
    exact of_quote start rest
  · rcases Lexeme.read_cases isStart quote with
      ⟨pattern, tail, after, kind, rfl, wins, known, found⟩ | ⟨found, nothing⟩
    · rw [scan_of_token isStart found]
      exact of_winner isStart quote wins known
    · have same : scan start (first :: ([] ++ rest)) = _ := scan_of_fault isStart found start
      rw [List.nil_append] at same
      rw [same]
      exact of_nothing isStart quote nothing

end Munches

/-- Behind any number of tokens of a source stand trivia and then the longest match. -/
theorem munches_of_scan {source : List Char} {tokens : List Token} {stream : Stream}
    (reached : scan 0 source = after tokens stream) :
    ∃ read gap text, source = read ++ (gap ++ text) ∧ IsGap text gap ∧
      stream = scan (byteWidth read) (gap ++ text) ∧
      Munches (byteWidth (read ++ gap)) text stream := by
  have fromStart : Cuts 0 source (after tokens stream) := reached ▸ cuts_scan 0 source
  -- behind the tokens the rest of the source is cut as a text of its own
  obtain ⟨read, rest, whole, left⟩ := fromStart.drop
  rw [Nat.zero_add] at left
  have place (gap : List Char) : byteWidth read + byteWidth gap = byteWidth (read ++ gap) :=
    (byteWidth_append read gap).symm
  have same := left.eq_scan
  cases left with
  | ending isGap stop_eq =>
    refine ⟨read, rest, [], by rw [whole, List.append_nil], isGap, ?_, ?_⟩
    · rw [List.append_nil, same]
    · rw [stop_eq, place]
      exact .of_nil _
  | @token _ start stop gap tail after first kind _ isGap isStart found start_eq stop_eq cuts =>
    refine ⟨read, gap, _, whole, isGap, same, ?_⟩
    have munches := Munches.of_isStart isStart (byteWidth (read ++ gap))
    rw [scan_of_token isStart found, ← place, ← start_eq, taken, ← stop_eq, ← cuts.eq_scan]
      at munches
    rw [← place, ← start_eq]
    exact munches
  | @fault _ start gap tail after first cause isGap isStart found start_eq =>
    refine ⟨read, gap, _, whole, isGap, same, ?_⟩
    have munches := Munches.of_isStart isStart (byteWidth (read ++ gap))
    rw [scan_of_fault isStart found, ← place, ← start_eq] at munches
    rw [← place, ← start_eq]
    exact munches

/-- A name may begin like a reserved word; behind it the word itself is cut off. -/
theorem reserved_word_follows_name :
    let name : Token := ⟨.identifier "iffy", "iffy", ⟨0, 4⟩⟩
    let word : Token := ⟨.keyword .ifWord, "if", ⟨5, 7⟩⟩
    scan 0 "iffy if".toList = after [name] (.token word (.ending 7)) ∧
      ∃ read gap text, "iffy if".toList = read ++ (gap ++ text) ∧ IsGap text gap ∧
        Munches (byteWidth (read ++ gap)) text (.token word (.ending 7)) := by
  intro name word
  have reached : scan 0 "iffy if".toList = after [name] (.token word (.ending 7)) := by
    decide +kernel
  obtain ⟨read, gap, text, whole, isGap, _, munches⟩ := munches_of_scan reached
  exact ⟨reached, read, gap, text, whole, isGap, munches⟩

end Stream

end Scriptlet
