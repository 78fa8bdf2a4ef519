import Scriptlet.Proofs.Editing.Scanning
import Scriptlet.Proofs.Grammar.Lookahead
import Scriptlet.Proofs.Token.Longest

/-! A scan of the characters puts the brackets of the tokens on record, each once, whether they come
in pairs or not, and it knows an open string from a closed one. -/

set_option autoImplicit false

namespace Scriptlet

namespace Kind

def isBracket : Kind → Bool
  | .mark .leftParen | .mark .rightParen | .mark .leftBrace | .mark .rightBrace => true
  | _ => false

theorem isBracket_cases (kind : Kind) :
    (∃ bracket, kind.opens? = some bracket ∧ kind.isBracket = true) ∨
      (∃ bracket, kind.closes? = some bracket ∧ kind.isBracket = true) ∨
        kind.IsPlain ∧ kind.isBracket = false := by
  cases kind with
  | mark symbol =>
    cases symbol
    case leftParen | leftBrace => exact .inl ⟨_, rfl, rfl⟩
    case rightParen | rightBrace => exact .inr (.inl ⟨_, rfl, rfl⟩)
    all_goals exact .inr (.inr ⟨⟨rfl, rfl⟩, rfl⟩)
  | number | string | identifier | keyword | endOfInput => exact .inr (.inr ⟨⟨rfl, rfl⟩, rfl⟩)

end Kind

def bracketStarts (tokens : List Token) : List Nat :=
  (tokens.filter fun token => token.kind.isBracket).map fun token => token.span.start

theorem bracketStarts_append (low high : List Token) :
    bracketStarts (low ++ high) = bracketStarts low ++ bracketStarts high := by
  rw [bracketStarts, List.filter_append, List.map_append]
  rfl

theorem bracketStarts_after {stream : Stream} (noMore : bracketStarts stream.tokens = [])
    (tokens : List Token) :
    bracketStarts (Stream.after tokens stream).tokens = bracketStarts tokens := by
  rw [Stream.tokens_after, bracketStarts_append, noMore, List.append_nil]

namespace Brackets

def offsets (brackets : Brackets) : List Nat :=
  brackets.pairs.flatMap (fun pair => [pair.1, pair.2]) ++
    (brackets.unmatched ++ brackets.opened.map Prod.snd)

theorem offsets_open (brackets : Brackets) (bracket : Bracket) (offset : Nat) :
    List.Perm { brackets with opened := (bracket, offset) :: brackets.opened }.offsets
      (brackets.offsets ++ [offset]) := by
  refine List.perm_iff_count.2 fun place => ?_
  simp only [offsets, List.map_cons, List.count_append, List.count_cons, List.count_nil]
  omega

/-- A closing bracket is put on record once, and the one it is held against stays there. -/
theorem offsets_close (brackets : Brackets) (bracket : Bracket) (offset : Nat) :
    List.Perm (brackets.close bracket offset).offsets (brackets.offsets ++ [offset]) := by
  refine List.perm_iff_count.2 fun place => ?_
  unfold close
  split
  · simp only [offsets, List.count_append, List.count_cons, List.count_nil]
    omega
  · next opened =>
    split
    all_goals
      simp only [offsets, opened, List.map_cons, List.flatMap_append, List.flatMap_cons,
        List.flatMap_nil, List.count_append, List.count_cons, List.count_nil]
      omega

theorem offsets_meet (brackets : Brackets) (token : Token) :
    List.Perm (brackets.meet token.kind token.span.start).offsets
      (brackets.offsets ++ bracketStarts [token]) := by
  rcases token.kind.isBracket_cases with ⟨bracket, opens, isOne⟩ | ⟨bracket, closes, isOne⟩ |
    ⟨plain, isNone⟩
  · have starts : bracketStarts [token] = [token.span.start] := by simp [bracketStarts, isOne]
    rw [meet_of_opens opens, starts]
    exact offsets_open brackets bracket token.span.start
  · have starts : bracketStarts [token] = [token.span.start] := by simp [bracketStarts, isOne]
    rw [meet_of_closes closes, starts]
    exact offsets_close brackets bracket token.span.start
  · have starts : bracketStarts [token] = [] := by simp [bracketStarts, isNone]
    rw [meet_of_isPlain plain, starts, List.append_nil]

theorem offsets_meetAll (brackets : Brackets) (tokens : List Token) :
    List.Perm (brackets.meetAll tokens).offsets (brackets.offsets ++ bracketStarts tokens) := by
  induction tokens generalizing brackets with
  | nil => exact .of_eq (List.append_nil _).symm
  | cons token tokens ih =>
    rw [meetAll_cons, ← List.singleton_append, bracketStarts_append, ← List.append_assoc]
    exact (ih _).trans ((offsets_meet brackets token).append_right _)

theorem scanFrom_unterminated {rest taken : List Char}
    (body : StringBody.read rest = .unterminated taken) (brackets : Brackets) (offset : Nat) :
    ∃ mode, (mode = .string ∨ mode = .escape) ∧
      (brackets.stand .string).scanFrom offset rest = brackets.stand mode := by
  fun_induction StringBody.read rest generalizing taken offset with
  | case1 => exact ⟨.string, .inl rfl, rfl⟩
  | case2 => cases body
  | case3 => exact ⟨.escape, .inr rfl, rfl⟩
  | case4 mark more c _ ih =>
    cases inner : StringBody.read more <;> rw [inner] at body <;> cases body
    exact ih inner (offset + '\\'.utf8Size + mark.utf8Size)
  | case5 => cases body
  | case6 c more noQuote noEnd noMark ih =>
    cases inner : StringBody.read more <;> rw [inner] at body <;> cases body
    have stays : (brackets.stand .string).step offset c more.head? = brackets.stand .string :=
      step_string rfl noQuote (StringBody.ne_backslash noEnd noMark) offset _
    rw [scanFrom_cons, stays]
    exact ih inner (offset + c.utf8Size)

end Brackets

/-- A string literal that is never closed is the rest of a text from a quote on. -/
theorem Lexeme.unterminated_of_fault {first : Char} {rest tail : List Char}
    (isStart : IsStart first rest) (found : read first rest = .fault .unterminatedString tail) :
    first = '"' ∧ StringBody.read rest = .unterminated tail := by
  by_cases quote : first = '"'
  · subst quote
    refine ⟨rfl, ?_⟩
    have inString : readString rest = .fault .unterminatedString tail := found
    unfold readString at inString
    split at inString <;> cases inString
    assumption
  · obtain ⟨other, _⟩ := unexpected_of_fault isStart quote found
    cases other

namespace Brackets

theorem scan_of_unterminated {text : List Char} {tokens : List Token} {fault : LexError}
    (scanned : Stream.scan 0 text = Stream.after tokens (.fault fault))
    (unterminated : fault.cause = .unterminatedString) :
    ∃ mode, (mode = .string ∨ mode = .escape) ∧ scan text = (empty.meetAll tokens).stand mode := by
  have cuts := Stream.cuts_scan 0 text
  rw [scanned] at cuts
  have start : empty.mode = .code := rfl
  obtain ⟨place, rest, left, same⟩ := scanFrom_after cuts start
  have code : (empty.meetAll tokens).mode = .code := mode_meetAll empty tokens
  cases left with
  | fault isGap isStart found =>
    obtain rfl : _ = LexCause.unterminatedString := unterminated
    obtain ⟨rfl, body⟩ := Lexeme.unterminated_of_fault isStart found
    obtain ⟨mode, isMode, gone⟩ := scanFrom_unterminated body (empty.meetAll tokens) _
    refine ⟨mode, isMode, ?_⟩
    rw [scan, same, scanFrom_start isGap isStart code, scanFrom_cons, step_quote code, gone]

theorem scan_of_ending {text : List Char} {tokens : List Token} {stop : Nat}
    (scanned : Stream.scan 0 text = Stream.after tokens (.ending stop)) :
    ∃ mode, (mode = .code ∨ mode = .comment) ∧ scan text = (empty.meetAll tokens).stand mode :=
  scanFrom_cuts (Stream.cuts_scan 0 text) scanned rfl

/-- A scan finds the brackets that cutting a text into tokens finds. It ends within a string if the
text does, and not if the text can be cut to its end. -/
theorem scan_agrees_with_tokenize (text : List Char) :
    (∀ tokens, tokenize text = .ok tokens →
      (scan text).inString = false ∧ List.Perm (scan text).offsets (bracketStarts tokens)) ∧
    ∀ fault, tokenize text = .error fault → fault.cause = .unterminatedString →
      (scan text).inString = true ∧
        List.Perm (scan text).offsets (bracketStarts (Stream.scan 0 text).tokens) := by
  refine ⟨fun tokens cut => ?_, fun fault cut unterminated => ?_⟩
  · unfold tokenize at cut
    dsimp only at cut
    split at cut
    · cases cut
    · next noError =>
      cases cut
      obtain ⟨tokens, stop, scanned⟩ := (Stream.cuts_scan 0 text).exists_after_of_ends noError
      obtain ⟨mode, isMode, same⟩ := scan_of_ending scanned
      rw [same, scanned, bracketStarts_after rfl]
      exact ⟨by rcases isMode with rfl | rfl <;> rfl, offsets_meetAll empty tokens⟩
  · obtain ⟨tokens, scanned⟩ := Stream.exists_after_of_error? (tokenize_eq_error_iff.1 cut)
    obtain ⟨mode, isMode, same⟩ := scan_of_unterminated scanned unterminated
    rw [same, scanned, bracketStarts_after rfl]
    exact ⟨by rcases isMode with rfl | rfl <;> rfl, offsets_meetAll empty tokens⟩

/-- Brackets in strings and comments are none, whether the text ends outside of strings or within
one. -/
theorem quoted_brackets_are_not_met :
    ((∃ tokens, tokenize "f(\")\"); // (".toList = .ok tokens) ∧
      (scan "f(\")\"); // (".toList).inString = false ∧
        List.Perm (scan "f(\")\"); // (".toList).offsets [1, 5]) ∧
    (∃ fault, tokenize ") // \"\n\"\\\"(".toList = .error fault ∧
        fault.cause = .unterminatedString) ∧
      (scan ") // \"\n\"\\\"(".toList).inString = true ∧
        List.Perm (scan ") // \"\n\"\\\"(".toList).offsets [0] := by
  obtain ⟨closed, _⟩ := scan_agrees_with_tokenize "f(\")\"); // (".toList
  obtain ⟨_, unclosed⟩ := scan_agrees_with_tokenize ") // \"\n\"\\\"(".toList
  have starts : (tokenize "f(\")\"); // (".toList).toOption.map bracketStarts = some [1, 5] := by
    decide +kernel
  have fault : tokenize ") // \"\n\"\\\"(".toList = .error ⟨.unterminatedString, ⟨7, 11⟩⟩ := by
    decide +kernel
  have before : bracketStarts (Stream.scan 0 ") // \"\n\"\\\"(".toList).tokens = [0] := by
    decide +kernel
  obtain ⟨inString, same⟩ := unclosed _ fault rfl
  rw [before] at same
  refine ⟨?_, ⟨_, fault, rfl⟩, inString, same⟩
  cases cut : tokenize "f(\")\"); // (".toList with
  | ok tokens =>
    rw [cut] at starts
    obtain ⟨outside, same⟩ := closed tokens cut
    rw [Option.some.inj starts] at same
    exact ⟨⟨tokens, rfl⟩, outside, same⟩
  | error error =>
    rw [cut] at starts
    cases starts

end Brackets

end Scriptlet
