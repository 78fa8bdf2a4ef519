import Scriptlet.Proofs.Grammar.Passes
import Scriptlet.Proofs.Token.Coverage

/-! Which tokens of a source a reader has given away, and which are ahead of it. -/

set_option autoImplicit false

namespace Scriptlet

namespace Stream

/-- A stream that ends with the end of input or with a fault, and not before. -/
def Whole : Stream → Prop
  | token head rest => head.kind ≠ .endOfInput ∧ rest.Whole
  | ending _ => True
  | fault _ => True
  | exhausted => False

def AllSpans (holds : Span → Prop) : Stream → Prop
  | token head rest => holds head.span ∧ rest.AllSpans holds
  | ending offset => holds (Span.point offset)
  | fault error => holds error.span
  | exhausted => True

def after (tokens : List Token) (stream : Stream) : Stream := tokens.foldr token stream

theorem error?_after (tokens : List Token) (stream : Stream) :
    (after tokens stream).error? = stream.error? := by
  induction tokens with
  | nil => rfl
  | cons head tokens ih => exact ih

theorem tokens_after (tokens : List Token) (stream : Stream) :
    (after tokens stream).tokens = tokens ++ stream.tokens := by
  induction tokens with
  | nil => rfl
  | cons head tokens ih => exact congrArg (head :: ·) ih

theorem after_append (tokens more : List Token) (stream : Stream) :
    after (tokens ++ more) stream = after tokens (after more stream) := List.foldr_append

theorem exists_after_of_error? {stream : Stream} {fault : LexError}
    (found : stream.error? = some fault) : ∃ tokens, stream = after tokens (.fault fault) := by
  induction stream with
  | token head rest ih =>
    obtain ⟨tokens, rfl⟩ := ih found
    exact ⟨head :: tokens, rfl⟩
  | fault => exact ⟨[], congrArg Stream.fault (Option.some.inj found)⟩
  | ending | exhausted => cases found

theorem Cuts.exists_after_of_ends {offset : Nat} {text : List Char} {stream : Stream}
    (cuts : Cuts offset text stream) (noError : stream.error? = none) :
    ∃ tokens stop, stream = after tokens (.ending stop) := by
  induction cuts with
  | token _ _ _ _ _ _ ih =>
    obtain ⟨tokens, stop, rfl⟩ := ih noError
    exact ⟨_ :: tokens, stop, rfl⟩
  | ending => exact ⟨[], _, rfl⟩
  | fault => cases noError

theorem Cuts.whole {offset : Nat} {text : List Char} {stream : Stream}
    (cuts : Cuts offset text stream) : stream.Whole := by
  induction cuts with
  | token _ _ found _ _ _ ih => exact ⟨(Lexeme.isLexeme_of_read found).ne_endOfInput, ih⟩
  | ending => trivial
  | fault => trivial

theorem Cuts.allSpans {offset : Nat} {text read : List Char} {stream : Stream}
    (cuts : Cuts offset text stream) (reached : offset = byteWidth read) :
    stream.AllSpans (Span.IsWithin (read ++ text)) := by
  induction cuts generalizing read with
  | @token offset start stop gap tail after first kind stream _ _ _ start_eq stop_eq _ ih =>
    have starts : start = byteWidth (read ++ gap) := by
      rw [start_eq, reached, byteWidth_append]
    have stops : stop = byteWidth (read ++ gap ++ first :: tail) := by
      rw [stop_eq, starts, byteWidth_append (read ++ gap)]
    have within := Span.IsWithin.of_append (read ++ gap) (first :: tail) after
    have later := ih stops
    rw [← starts, ← stops, List.append_assoc read] at within
    rw [List.append_assoc, List.append_assoc read] at later
    exact ⟨within, later⟩
  | @ending offset stop gap _ stop_eq =>
    refine Span.IsWithin.of_point ?_
    rw [stop_eq, reached, ← byteWidth_append]
    exact isPlace_byteWidth (read ++ gap)
  | @fault offset start gap tail after first cause _ _ _ start_eq =>
    have starts : start = byteWidth (read ++ gap) := by
      rw [start_eq, reached, byteWidth_append]
    have within := Span.IsWithin.of_append (read ++ gap) (first :: tail) after
    rw [byteWidth_append (read ++ gap) (first :: tail), ← starts, List.append_assoc read] at within
    exact within

theorem allSpans_after {holds : Span → Prop} {tokens : List Token} {stream : Stream} :
    (after tokens stream).AllSpans holds ↔
      (∀ token ∈ tokens, holds token.span) ∧ stream.AllSpans holds := by
  induction tokens with
  | nil => simp [after]
  | cons head tokens ih => simp [after, AllSpans, ← ih, and_assoc]

end Stream

theorem tokenize_eq_error_iff {source : List Char} {fault : LexError} :
    tokenize source = .error fault ↔ (Stream.scan 0 source).error? = some fault := by
  rw [tokenize]
  split
  · next found => simp [found]
  · next none => simp [none]

theorem exists_after_of_tokenize {source : List Char} {tokens : List Token}
    (cut : tokenize source = .ok tokens) :
    ∃ before stop, Stream.scan 0 source = Stream.after before (.ending stop) ∧
      tokens = before ++ [Token.ending stop] := by
  rw [tokenize] at cut
  split at cut
  · cases cut
  · next noError =>
    obtain ⟨before, stop, scanned⟩ := (Stream.cuts_scan 0 source).exists_after_of_ends noError
    rw [scanned, Stream.tokens_after] at cut
    exact ⟨before, stop, scanned, (Except.ok.inj cut).symm⟩

theorem tokenize_of_scan {source : List Char} {tokens : List Token} {stop : Nat}
    (scanned : Stream.scan 0 source = Stream.after tokens (.ending stop)) :
    tokenize source = .ok (tokens ++ [Token.ending stop]) := by
  rw [tokenize, scanned, Stream.error?_after, Stream.tokens_after]
  rfl

namespace Reader

/-- Either the end of input is in hand, or more follows the token in hand. -/
def Whole (reader : Reader) : Prop :=
  (∃ offset, reader.current = Token.ending offset) ∨
    reader.current.kind ≠ .endOfInput ∧ reader.rest.Whole

/-- What a reader has not given away, as a stream. -/
def ahead (reader : Reader) : Stream :=
  if reader.current.kind = .endOfInput then .ending reader.current.span.stop
  else .token reader.current reader.rest

theorem whole_token {token : Token} {rest : Stream} {loops : Nat}
    (kind : token.kind ≠ .endOfInput) (whole : rest.Whole) :
    Whole ⟨token, rest, loops⟩ ∧ ahead ⟨token, rest, loops⟩ = .token token rest :=
  ⟨.inr ⟨kind, whole⟩, if_neg kind⟩

theorem whole_ending (offset : Nat) (rest : Stream) (loops : Nat) :
    Whole ⟨Token.ending offset, rest, loops⟩ ∧
      ahead ⟨Token.ending offset, rest, loops⟩ = .ending offset :=
  ⟨.inl ⟨offset, rfl⟩, rfl⟩

theorem current_mem_head? {reader : Reader} (whole : reader.Whole) :
    reader.current ∈ reader.ahead.tokens.head? := by
  unfold ahead
  split
  · next ends =>
    rcases whole with ⟨offset, ending⟩ | ⟨goesOn, _⟩
    · rw [ending]
      rfl
    · exact absurd ends goesOn
  · rfl

theorem start_eq_error_iff {source : List Char} {fault : LexError} :
    Reader.start source = .error fault ↔ Stream.scan 0 source = .fault fault := by
  unfold Reader.start
  split <;> simp [*]

theorem whole_start {source : List Char} {reader : Reader}
    (started : Reader.start source = .ok reader) :
    reader.Whole ∧ reader.ahead = Stream.scan 0 source := by
  have whole := (Stream.cuts_scan 0 source).whole
  unfold Reader.start at started
  split at started
  · next scanned =>
    rw [scanned] at whole ⊢
    cases started
    exact whole_token whole.1 whole.2
  · next scanned =>
    rw [scanned]
    cases started
    exact whole_ending _ _ _
  · cases started
  · next scanned =>
    rw [scanned] at whole
    exact whole.elim

theorem whole_advance {reader next : Reader} {token : Token} (whole : reader.Whole)
    (goesOn : reader.current.kind ≠ .endOfInput)
    (given : Parse.advance reader = .done token next) :
    next.Whole ∧ reader.ahead = .token token next.ahead := by
  have rest : reader.rest.Whole := by
    rcases whole with ⟨offset, ending⟩ | ⟨_, rest⟩
    · rw [ending] at goesOn
      exact absurd rfl goesOn
    · exact rest
  have front : reader.ahead = .token reader.current reader.rest := if_neg goesOn
  rw [front]
  unfold Parse.advance at given
  rw [if_neg goesOn] at given
  split at given
  · next following =>
    rw [following] at rest ⊢
    cases given
    exact ⟨(whole_token rest.1 rest.2).1, congrArg _ (whole_token rest.1 rest.2).2.symm⟩
  · next following =>
    rw [following]
    cases given
    exact ⟨.inl ⟨_, rfl⟩, rfl⟩
  · cases given
  · next following =>
    rw [following] at rest
    exact rest.elim

/-- Tokens before the end of input lead, given away one after the other, from one reader to another;
the loops around do not matter. -/
inductive Gives : List Token → Reader → Reader → Prop where
  | nil {reader after : Reader} : after.current = reader.current → after.rest = reader.rest →
    Gives [] reader after
  | cons {token : Token} {tokens : List Token} {reader next after : Reader} :
    reader.current.kind ≠ .endOfInput → Parse.advance reader = .done token next →
      Gives tokens next after → Gives (token :: tokens) reader after

namespace Gives

theorem refl (reader : Reader) : Gives [] reader reader := .nil rfl rfl

theorem single {reader next : Reader} {token : Token}
    (goesOn : reader.current.kind ≠ .endOfInput)
    (given : Parse.advance reader = .done token next) : Gives [token] reader next :=
  .cons goesOn given (refl next)

theorem whole {tokens : List Token} {reader after : Reader} (gives : Gives tokens reader after)
    (whole : reader.Whole) : after.Whole ∧ reader.ahead = Stream.after tokens after.ahead := by
  induction gives with
  | @nil reader after current rest =>
    obtain ⟨token, stream, loops⟩ := after
    cases current
    cases rest
    exact ⟨whole, rfl⟩
  | cons goesOn given _ ih =>
    obtain ⟨wholeNext, same⟩ := whole_advance whole goesOn given
    obtain ⟨wholeAfter, later⟩ := ih wholeNext
    exact ⟨wholeAfter, by rw [same, later]; rfl⟩

theorem of_same {tokens : List Token} {reader other after : Reader}
    (gives : Gives tokens reader after) (current : other.current = reader.current)
    (rest : other.rest = reader.rest) : Gives tokens other after := by
  induction gives generalizing other with
  | nil sameCurrent sameRest =>
    exact .nil (sameCurrent.trans current.symm) (sameRest.trans rest.symm)
  | @cons token tokens reader next after goesOn given _ ih =>
    obtain ⟨token, stream, loops⟩ := other
    cases current
    cases rest
    exact .cons goesOn (Parse.advance_withLoops given loops) (ih rfl rfl)

theorem trans {tokens more : List Token} {reader middle after : Reader}
    (first : Gives tokens reader middle) (second : Gives more middle after) :
    Gives (tokens ++ more) reader after := by
  induction first with
  | nil current rest => exact second.of_same current.symm rest.symm
  | cons goesOn given _ ih => exact .cons goesOn given (ih second)

end Gives

theorem kind_of_ahead_ending {reader : Reader} {stop : Nat} (front : reader.ahead = .ending stop) :
    reader.current.kind = .endOfInput := by
  by_contra goesOn
  rw [ahead, if_neg goesOn] at front
  cases front

theorem current_of_ahead {reader : Reader} {head : Token} {rest : Stream}
    (front : reader.ahead = .token head rest) :
    reader.current = head ∧ head.kind ≠ .endOfInput := by
  by_cases ends : reader.current.kind = .endOfInput
  · rw [ahead, if_pos ends] at front
    cases front
  · rw [ahead, if_neg ends] at front
    obtain ⟨rfl, _⟩ := Stream.token.inj front
    exact ⟨rfl, ends⟩

/-- The first token ahead is given away, unless a fault follows it. -/
theorem advance_cases {reader : Reader} {head : Token} {rest : Stream} (whole : reader.Whole)
    (front : reader.ahead = .token head rest) :
    (∃ next, Parse.advance reader = .done head next ∧ next.Whole ∧ next.ahead = rest) ∨
      ∃ fault next, rest = .fault fault ∧
        Parse.advance reader = .failed (.lexical fault) next := by
  obtain ⟨rfl, goesOn⟩ := current_of_ahead front
  have same := front
  rw [ahead, if_neg goesOn] at same
  cases same
  cases given : Parse.advance reader with
  | done token next =>
    obtain ⟨wholeNext, split⟩ := whole_advance whole goesOn given
    rw [front] at split
    obtain ⟨rfl, rest⟩ := Stream.token.inj split
    exact .inl ⟨next, rfl, wholeNext, rest.symm⟩
  | failed error next =>
    right
    unfold Parse.advance at given
    rw [if_neg goesOn] at given
    split at given <;> cases given
    next fault => exact ⟨_, _, fault, rfl⟩
  | cutOff =>
    unfold Parse.advance at given
    rw [if_neg goesOn] at given
    split at given <;> cases given

/-- Tokens lead, given away one after the other, from one reader to another within the same loops. -/
inductive Leads : List Token → Reader → Reader → Prop where
  | nil {reader : Reader} : Leads [] reader reader
  | cons {token : Token} {tokens : List Token} {reader next after : Reader} :
    Parse.advance reader = .done token next → Leads tokens next after →
      Leads (token :: tokens) reader after

namespace Leads

variable {tokens more : List Token} {reader after : Reader}

theorem nil_iff : Leads [] reader after ↔ after = reader := by
  constructor
  · intro leads
    cases leads
    rfl
  · rintro rfl
    exact .nil

theorem cons_iff {token : Token} : Leads (token :: tokens) reader after ↔
    reader.current = token ∧
      ∃ next, Parse.advance reader = .done token next ∧ Leads tokens next after := by
  constructor
  · intro leads
    cases leads with
    | cons given leads => exact ⟨(Parse.eq_current_of_advance given).symm, _, given, leads⟩
  · rintro ⟨_, next, given, leads⟩
    exact .cons given leads

theorem append_iff : Leads (tokens ++ more) reader after ↔
    ∃ middle, Leads tokens reader middle ∧ Leads more middle after := by
  constructor
  · intro leads
    induction tokens generalizing reader with
    | nil => exact ⟨reader, .nil, leads⟩
    | cons token tokens ih =>
      cases leads with
      | cons given leads =>
        obtain ⟨middle, low, high⟩ := ih leads
        exact ⟨middle, .cons given low, high⟩
  · rintro ⟨middle, low, high⟩
    induction low with
    | nil => exact high
    | cons given _ ih => exact .cons given (ih high)

theorem single_iff {token : Token} : Leads [token] reader after ↔
    reader.current = token ∧ Parse.advance reader = .done token after := by
  rw [cons_iff]
  constructor
  · rintro ⟨same, next, given, leads⟩
    rw [nil_iff.1 leads]
    exact ⟨same, given⟩
  · rintro ⟨same, given⟩
    exact ⟨same, after, given, .nil⟩

theorem current_mem_head? (leads : Leads tokens reader after) (nonempty : tokens ≠ []) :
    reader.current ∈ tokens.head? := by
  cases leads with
  | nil => exact absurd rfl nonempty
  | cons given _ => exact congrArg some (Parse.eq_current_of_advance given)

theorem loops (leads : Leads tokens reader after) : after.loops = reader.loops := by
  induction leads with
  | nil => rfl
  | cons given _ ih => rw [ih, Parse.loops_of_advance given]

end Leads

theorem exists_leads_of_passes {kinds : List Kind} {reader after : Reader}
    (passes : Passes kinds reader after) :
    ∃ tokens : List Token, tokens.map Token.kind = kinds ∧ Leads tokens reader after := by
  induction passes with
  | nil => exact ⟨[], rfl, .nil⟩
  | cons given _ ih =>
    obtain ⟨tokens, same, leads⟩ := ih
    refine ⟨_ :: tokens, ?_, .cons given leads⟩
    rw [List.map_cons, same, Parse.eq_current_of_advance given]

theorem exists_leads {reader : Reader} {tokens : List Token} {stream : Stream}
    (whole : reader.Whole) (front : reader.ahead = Stream.after tokens stream)
    (sound : ∀ fault, stream ≠ .fault fault) :
    ∃ after, Leads tokens reader after ∧ after.Whole ∧ after.ahead = stream := by
  induction tokens generalizing reader with
  | nil => exact ⟨reader, .nil, whole, front⟩
  | cons token tokens ih =>
    rcases advance_cases whole front with ⟨next, given, wholeNext, rest⟩ | ⟨fault, _, rest, _⟩
    · obtain ⟨after, leads, wholeAfter, same⟩ := ih wholeNext rest
      exact ⟨after, .cons given leads, wholeAfter, same⟩
    · cases tokens with
      | nil => exact absurd rest (sound fault)
      | cons => cases rest

end Reader

end Scriptlet
