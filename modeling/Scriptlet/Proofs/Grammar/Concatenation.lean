import Scriptlet.Proofs.Grammar.Prolonging
import Scriptlet.Proofs.Grammar.Shifting

/-! A program goes on behind a line feed as a program of its own. -/

set_option autoImplicit false

namespace Scriptlet

theorem readProgram_of_fault {source : List Char} {fault : LexError}
    (scanned : Stream.scan 0 source = .fault fault) :
    readProgram source = .error (.lexical fault) := by
  rw [readProgram, Reader.start_eq_error_iff.2 scanned]

theorem readProgram_of_meets {source : List Char} {reader : Reader}
    {expected : Except SyntaxError Node} (started : Reader.start source = .ok reader)
    (meets : (Parse.sequence reader.fuel false reader).Meets
      (fun nodes last => expected = .ok (.program ⟨0, last.current.span.stop⟩ nodes))
      fun error _ => expected = .error error) :
    readProgram source = expected := by
  have program : (Parse.wholeProgram reader.fuel reader).Meets (fun tree _ => expected = .ok tree)
      fun error _ => expected = .error error :=
    Action.meets_bind meets fun _ _ same => same
  rw [readProgram, started]
  exact program.result reader.program_ends

theorem readProgram_of_done {source : List Char} {reader last : Reader} {nodes : List Node}
    (started : Reader.start source = .ok reader)
    (done : Parse.sequence reader.fuel false reader = .done nodes last) :
    readProgram source = .ok (.program ⟨0, last.current.span.stop⟩ nodes) :=
  readProgram_of_meets started (by rw [done]; rfl)

theorem readProgram_of_failed {source : List Char} {reader last : Reader} {error : SyntaxError}
    (started : Reader.start source = .ok reader)
    (failed : Parse.sequence reader.fuel false reader = .failed error last) :
    readProgram source = .error error :=
  readProgram_of_meets started (by rw [failed]; rfl)

theorem exists_sequence_of_readProgram {source : List Char} {span : Span} {statements : List Node}
    (read : readProgram source = .ok (.program span statements)) :
    ∃ reader last, Reader.start source = .ok reader ∧
      Parse.sequence reader.fuel false reader = .done statements last := by
  cases started : Reader.start source with
  | error fault =>
    rw [readProgram_of_fault (Reader.start_eq_error_iff.1 started)] at read
    cases read
  | ok reader =>
    have ends := Action.ne_cutOff_of_bind reader.program_ends
    refine ⟨reader, ?_⟩
    cases outcome : Parse.sequence reader.fuel false reader with
    | done nodes last =>
      cases read.symm.trans (readProgram_of_done started outcome)
      exact ⟨last, rfl, rfl⟩
    | failed error last =>
      cases read.symm.trans (readProgram_of_failed started outcome)
    | cutOff => exact absurd outcome ends

namespace Parse

open Reader (Prolongs)

/-- Statements that are read to the end of input are read where more stands behind them as well, and
reading goes on there. -/
theorem follows_sequence {behind : Stream} {good : List Node → Reader → Prop}
    {bad : SyntaxError → Reader → Prop}
    (noElse : ∀ head ∈ behind.tokens.head?, head.kind ≠ .keyword .elseWord)
    (fault : ∀ fault reached, behind = .fault fault → bad (.lexical fault) reached)
    (goesOn : ∀ steps reached, reached.Whole → reached.ahead = behind → reached.loops = 0 →
      (sequence steps false reached).Meets good bad) (fuel steps : Nat) {tokens : List Token}
    {first second : Reader} (prolongs : Prolongs tokens behind first second)
    (outside : first.loops = 0) :
    (sequence fuel false first).Meets
      (fun nodes _ => (sequence steps false second).Meets
        (fun all last => ∃ rest, all = nodes ++ rest ∧ good rest last) bad)
      fun _ _ => True := by
  induction fuel generalizing steps tokens first second with
  | zero => trivial
  | succ fuel ih =>
    refine (sequence (fuel + 1) false first).meets_self.mono (fun nodes last done => ?_)
      fun _ _ _ => trivial
    cases steps with
    | zero => trivial
    | succ steps =>
      cases tokens with
      | nil =>
        -- the first run stops here, and the second one is at what stands behind
        rw [sequence, current_bind, prolongs.ended] at done
        cases done
        refine (goesOn (steps + 1) second prolongs.wholeSecond prolongs.goesOn ?_).imp ?_
        · rw [prolongs.loops, outside]
        · exact fun rest last holds => ⟨rest, rfl, holds⟩
      | cons head tokens =>
        obtain ⟨current, currentSecond, text⟩ := prolongs.current
        rw [sequence, current_bind, current, if_neg (by simp [text])] at done
        rw [sequence, current_bind, currentSecond, if_neg (by simp [text])]
        obtain ⟨node, after, given, done⟩ := Action.bind_eq_done_iff.1 done
        obtain ⟨rest, final, read, same⟩ := Action.bind_eq_done_iff.1 done
        cases same
        have loops := (statementSound fuel).statement first prolongs.lexical
        rw [given] at loops
        have repeats := ((statementFollows noElse fuel steps).statement prolongs).repeats given
        have orFault : (statement steps second).Meets
            (fun found reached => found = node ∧ ∃ tokens, Prolongs tokens behind after reached) bad := by
          refine repeats.mono (fun _ _ found => found) ?_
          rintro _ reached ⟨found, isFault, rfl⟩
          exact fault found reached isFault
        refine Action.meets_bind orFault ?_
        rintro _ reached ⟨rfl, tokens, prolongs⟩
        have later := ih steps prolongs (loops.2.1.trans outside)
        rw [read] at later
        refine Action.meets_bind later ?_
        rintro _ last ⟨more, rfl, holds⟩
        exact ⟨more, rfl, holds⟩

end Parse

theorem Reader.ahead_ne_fault (reader : Reader) (fault : LexError) :
    reader.ahead ≠ .fault fault := by
  unfold ahead
  split <;> nofun

theorem Reader.exists_start_of_ahead {source : List Char} {distance : Nat} {reached : Reader}
    (whole : reached.Whole) (front : reached.ahead = (Stream.scan 0 source).shift distance)
    (outside : reached.loops = 0) :
    ∃ start, Reader.start source = .ok start ∧
      (reached = start.shift distance ∨
        start.current.kind = .endOfInput ∧ reached.current = start.current.shift distance) := by
  cases scanned : Stream.scan 0 source with
  | token head rest =>
    rw [scanned] at front
    refine ⟨⟨head, rest, 0⟩, by rw [start, scanned], .inl ?_⟩
    obtain ⟨same, text⟩ := current_of_ahead front
    rw [← same] at text
    rw [ahead, if_neg text] at front
    obtain ⟨current, others, loops⟩ := reached
    cases front
    cases outside
    rfl
  | ending stop =>
    rw [scanned] at front
    refine ⟨⟨Token.ending stop, .exhausted, 0⟩, by rw [start, scanned], .inr ⟨rfl, ?_⟩⟩
    -- nothing is ahead of the reader, so it has the end of input in hand
    have ends := kind_of_ahead_ending front
    rcases whole with ⟨offset, ending⟩ | ⟨goesOn, _⟩
    · rw [ahead, if_pos ends, ending] at front
      obtain rfl := Stream.ending.inj front
      exact ending
    · exact absurd ends goesOn
  | fault fault =>
    rw [scanned] at front
    exact absurd front (reached.ahead_ne_fault _)
  | exhausted =>
    have whole := (Stream.cuts_scan 0 source).whole
    rw [scanned] at whole
    exact whole.elim

theorem Stream.head?_tokens_shift (stream : Stream) (distance : Nat) :
    (stream.shift distance).tokens.head? = stream.tokens.head?.map (·.shift distance) := by
  cases stream <;> rfl

theorem reads_shifted_fault {source : List Char} {distance : Nat} {fault : LexError}
    (shifted : (Stream.scan 0 source).shift distance = .fault fault) :
    ∃ found, readProgram source = .error found ∧
      SyntaxError.lexical fault = found.shift distance := by
  cases scanned : Stream.scan 0 source with
  | fault other =>
    rw [scanned] at shifted
    obtain rfl := Stream.fault.inj shifted
    exact ⟨.lexical other, readProgram_of_fault scanned, rfl⟩
  | token | ending | exhausted =>
    rw [scanned] at shifted
    cases shifted

theorem reads_shifted {source : List Char} {distance steps : Nat} {reached : Reader}
    (whole : reached.Whole) (front : reached.ahead = (Stream.scan 0 source).shift distance)
    (outside : reached.loops = 0) :
    (Parse.sequence steps false reached).Meets
      (fun nodes last => ∃ stop statements, readProgram source = .ok (.program ⟨0, stop⟩ statements) ∧
        nodes = statements.map (Node.shift · distance) ∧ last.current.span.stop = stop + distance)
      fun error _ => ∃ found, readProgram source = .error found ∧ error = found.shift distance := by
  obtain ⟨start, started, rfl | ⟨ends, current⟩⟩ := Reader.exists_start_of_ahead whole front outside
  · by_cases cut : Parse.sequence steps false (start.shift distance) = .cutOff
    · rw [cut]
      trivial
    · have goesOn := Action.ne_cutOff_of_bind start.program_ends
      rw [Parse.moves_sequence distance start.fuel steps false start goesOn cut]
      cases outcome : Parse.sequence start.fuel false start with
      | done nodes last => exact ⟨_, _, readProgram_of_done started outcome, rfl, rfl⟩
      | failed error last => exact ⟨_, readProgram_of_failed started outcome, rfl⟩
      | cutOff => trivial
  · have nothing : Parse.sequence start.fuel false start = .done [] start := by
      rw [Reader.fuel, Parse.sequence, Parse.current_bind, ends]
      rfl
    cases steps with
    | zero => trivial
    | succ steps =>
      rw [Parse.sequence, Parse.current_bind, current, Token.kind_shift, ends]
      exact ⟨_, _, readProgram_of_done started nothing, rfl, by rw [current]; rfl⟩

/-- What stands behind a program and a line feed is read as a program by itself is, behind the statements
before it and with its places moved. That is so if the first program is empty or its last token ends
statements, and the second one does not start with an `else`. -/
theorem readProgram_append_line {first second : List Char} {tokens : List Token} {tree : Node}
    (read : readProgram first = .ok tree) (cut : tokenize first = .ok tokens)
    (closed : ∀ last ∈ tokens.dropLast.getLast?,
      last.kind = .mark .semicolon ∨ last.kind = .mark .rightBrace)
    (noElse : ∀ head ∈ (Stream.scan 0 second).tokens.head?, head.kind ≠ .keyword .elseWord) :
    readProgram (first ++ '\n' :: second) =
      match readProgram second with
      | .ok more =>
        .ok (.program ⟨0, more.span.stop + (byteWidth first + 1)⟩
          (tree.children ++ more.children.map (Node.shift · (byteWidth first + 1))))
      | .error error => .error (error.shift (byteWidth first + 1)) := by
  obtain ⟨part, stop, statements, scanned, rfl, _⟩ := derives_of_readProgram read
  obtain ⟨firstReader, last, started, done⟩ := exists_sequence_of_readProgram read
  have whole := Stream.scan_append_line scanned second
  have closes : ∀ last ∈ part.getLast?, last.kind.Closes := by
    rw [tokenize, scanned, Stream.error?_after] at cut
    obtain rfl := Except.ok.inj cut
    rw [Stream.tokens_after, Stream.tokens, List.dropLast_concat] at closed
    exact closed
  have noElseBehind : ∀ head ∈ ((Stream.scan 0 second).shift (byteWidth first + 1)).tokens.head?,
      head.kind ≠ .keyword .elseWord := by
    intro head isHead
    rw [Stream.head?_tokens_shift] at isHead
    obtain ⟨token, isToken, rfl⟩ := Option.map_eq_some_iff.1 isHead
    exact noElse token isToken
  cases startedWhole : Reader.start (first ++ '\n' :: second) with
  | error fault =>
    have scannedWhole := Reader.start_eq_error_iff.1 startedWhole
    -- there is nothing before the fault
    obtain rfl : part = [] := by
      cases part with
      | nil => rfl
      | cons =>
        rw [whole] at scannedWhole
        cases scannedWhole
    obtain ⟨found, failed, same⟩ := reads_shifted_fault (whole.symm.trans scannedWhole)
    rw [readProgram_of_fault scannedWhole, failed, same]
  | ok secondReader =>
    obtain ⟨lexical, outside⟩ := Reader.lexical_start started
    obtain ⟨wholeFirst, front⟩ := Reader.whole_start started
    obtain ⟨wholeSecond, frontSecond⟩ := Reader.whole_start startedWhole
    have prolongs : Reader.Prolongs part _ firstReader secondReader :=
      { lexical := lexical
        whole := wholeFirst
        ends := ⟨stop, front.trans scanned⟩
        wholeSecond := wholeSecond
        goesOn := frontSecond.trans whole
        loops := by rw [outside, (Reader.lexical_start startedWhole).2]
        closed := closes }
    have follows := Parse.follows_sequence noElseBehind (fun _ _ => reads_shifted_fault)
      (fun _ _ => reads_shifted) firstReader.fuel secondReader.fuel prolongs outside
    rw [done] at follows
    have reads : (Parse.sequence secondReader.fuel false secondReader).Meets _ _ := follows
    refine readProgram_of_meets startedWhole (reads.mono ?_ ?_)
    · rintro all last ⟨rest, rfl, stop, more, readSecond, rfl, ends⟩
      rw [readSecond, ends]
      rfl
    · rintro error _ ⟨found, failed, rfl⟩
      rw [failed]

/-- Behind a branch without an `else`, the semicolon of which ends it. -/
theorem statement_after_branch :
    let first := "if (a) b;".toList
    let second := "c".toList
    let tokens : List Token :=
      [⟨.keyword .ifWord, "if", ⟨0, 2⟩⟩, ⟨.mark .leftParen, "(", ⟨3, 4⟩⟩,
        ⟨.identifier "a", "a", ⟨4, 5⟩⟩, ⟨.mark .rightParen, ")", ⟨5, 6⟩⟩,
        ⟨.identifier "b", "b", ⟨7, 8⟩⟩, ⟨.mark .semicolon, ";", ⟨8, 9⟩⟩, Token.ending 9]
    ∃ tree more, readProgram first = .ok tree ∧ readProgram second = .ok more ∧
      tokenize first = .ok tokens ∧
      (∀ last ∈ tokens.dropLast.getLast?,
        last.kind = .mark .semicolon ∨ last.kind = .mark .rightBrace) ∧
      (∀ head ∈ (Stream.scan 0 second).tokens.head?, head.kind ≠ .keyword .elseWord) ∧
      readProgram (first ++ '\n' :: second) =
        .ok (.program ⟨0, more.span.stop + 10⟩
          (tree.children ++ more.children.map (Node.shift · 10))) := by
  intro first second tokens
  have program : (readProgram first).toOption.isSome = true := by decide +kernel
  have programSecond : (readProgram second).toOption.isSome = true := by decide +kernel
  have cut : tokenize first = .ok tokens := by decide +kernel
  have closed : ∀ last ∈ tokens.dropLast.getLast?,
      last.kind = .mark .semicolon ∨ last.kind = .mark .rightBrace := by decide +kernel
  have noElse : ∀ head ∈ (Stream.scan 0 second).tokens.head?, head.kind ≠ .keyword .elseWord := by
    decide +kernel
  cases read : readProgram first with
  | error error =>
    rw [read] at program
    cases program
  | ok tree =>
    cases readSecond : readProgram second with
    | error error =>
      rw [readSecond] at programSecond
      cases programSecond
    | ok more =>
      refine ⟨tree, more, rfl, rfl, cut, closed, noElse, ?_⟩
      rw [readProgram_append_line read cut closed noElse, readSecond]
      rfl

end Scriptlet
