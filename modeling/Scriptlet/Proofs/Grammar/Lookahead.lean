import Scriptlet.Proofs.Grammar.Placed

/-! Tokens are cut off one ahead of where they are read. That finds what cutting the whole source first
would find: its fault, unless there is an error before it.
-/

set_option autoImplicit false

namespace Scriptlet

namespace Stream

theorem Cuts.allSpans_behind {offset : Nat} {text : List Char} {stream : Stream}
    {tokens : List Token} (cuts : Cuts offset text (after tokens stream)) :
    ∀ token ∈ tokens, stream.AllSpans fun span => token.span.stop ≤ span.start := by
  induction tokens generalizing offset text with
  | nil => exact List.forall_mem_nil _
  | cons head tokens ih =>
    cases cuts with
    | @token _ start stop gap tail rest first kind _ isGap isStart found start_eq stop_eq cuts =>
      have later := (allSpans_after.1 cuts.allSpans_from).2
      exact List.forall_mem_cons.2 ⟨later.imp fun span from_ => from_.1, ih cuts⟩

end Stream

namespace Reader

theorem ahead_of_error? {reader : Reader} {fault : LexError}
    (found : reader.ahead.error? = some fault) :
    reader.ahead = .token reader.current reader.rest := by
  unfold ahead at found ⊢
  split at found
  · cases found
  · next goesOn => rw [if_neg goesOn]

/-- Unless an error is the fault itself, it ends before the fault starts. -/
theorem Refuses.before_fault {reader : Reader} {error : SyntaxError} {fault : LexError}
    (refuses : reader.Refuses error) (whole : reader.Whole)
    (found : reader.ahead.error? = some fault) {offset : Nat} {text : List Char}
    {tokens : List Token} (cuts : Stream.Cuts offset text (Stream.after tokens reader.ahead)) :
    error = .lexical fault ∨
      (∀ other, error ≠ .lexical other) ∧ error.span.stop ≤ fault.span.start := by
  have current : reader.current.span.stop ≤ fault.span.start := by
    have ahead := ahead_of_error? found
    rw [ahead] at cuts found
    have foundLater : reader.rest.error? = some fault := found
    obtain ⟨more, rest⟩ := Stream.exists_after_of_error? foundLater
    have split : Stream.token reader.current reader.rest =
        Stream.after (reader.current :: more) (.fault fault) := congrArg _ rest
    rw [split, ← Stream.after_append] at cuts
    exact cuts.allSpans_behind _ (by simp)
  cases refuses with
  | unexpectedToken => exact .inr ⟨by rintro _ ⟨⟩, current⟩
  | expectedExpression => exact .inr ⟨by rintro _ ⟨⟩, current⟩
  | expectedIdentifier => exact .inr ⟨by rintro _ ⟨⟩, current⟩
  | controlOutsideLoop => exact .inr ⟨by rintro _ ⟨⟩, current⟩
  -- a target has been given away by then, so it is the tokens before the reader that count
  | @invalidTarget _ after low target fuel gives groups =>
    have same := (gives.whole whole).2
    rw [same, Stream.error?_after] at found
    obtain ⟨more, rest⟩ := Stream.exists_after_of_error? found
    rw [same, rest, ← Stream.after_append, ← Stream.after_append] at cuts
    have order : Token.InOrder (tokens ++ low) :=
      cuts.inOrder.of_sublist (List.sublist_append_left (tokens ++ low) more)
    have covers := groups.covers (order.of_sublist (List.sublist_append_right tokens low))
    obtain ⟨_, last, _, isLast, span⟩ := covers
    have member : last ∈ tokens ++ low ++ more := by simp [List.mem_of_mem_getLast? isLast]
    have ends : target.span.stop ≤ fault.span.start := by
      rw [span]
      exact cuts.allSpans_behind last member
    exact .inr ⟨by rintro _ ⟨⟩, ends⟩
  | lexical goesOn fault' =>
    rw [ahead, if_neg goesOn, fault'] at found
    exact .inl (congrArg SyntaxError.lexical (Option.some.inj found))

end Reader

/-- What an error of reading a source speaks of: a token, an expression with `=` behind it, or the fault
that the source cannot be cut past. -/
def SyntaxError.SpeaksOf (source : List Char) : SyntaxError → Prop
  | unexpectedToken _ found span | expectedExpression found span | expectedIdentifier found span =>
    ∃ token ∈ (Stream.scan 0 source).tokens, token.kind = found ∧ token.span = span
  | controlOutsideLoop word span =>
    ∃ token ∈ (Stream.scan 0 source).tokens, token.kind = .keyword word ∧ token.span = span
  | invalidTarget span =>
    ∃ before reader fuel target after, Stream.scan 0 source = Stream.after before reader.ahead ∧
      Parse.operation fuel Operator.loosest reader = .done target after ∧
      (∀ place name, target ≠ .reference place name) ∧ after.current.kind = .mark .equal ∧
      target.span = span
  | lexical fault => tokenize source = .error fault

theorem Reader.Refuses.speaksOf {reader : Reader} {error : SyntaxError}
    (refuses : reader.Refuses error) (whole : reader.Whole) {source : List Char}
    {tokens : List Token} (scanned : Stream.scan 0 source = Stream.after tokens reader.ahead) :
    error.SpeaksOf source := by
  have current : reader.current ∈ (Stream.scan 0 source).tokens := by
    rw [scanned, Stream.tokens_after]
    exact List.mem_append_right tokens (List.mem_of_mem_head? (Reader.current_mem_head? whole))
  cases refuses with
  | unexpectedToken | expectedExpression | expectedIdentifier => exact ⟨_, current, rfl, rfl⟩
  | controlOutsideLoop word => exact ⟨_, current, word, rfl⟩
  | invalidTarget _ _ equal other done => exact ⟨_, _, _, _, _, scanned, done, other, equal, rfl⟩
  | lexical goesOn fault =>
    refine tokenize_eq_error_iff.2 ?_
    rw [scanned, Stream.error?_after, Reader.ahead, if_neg goesOn, fault]
    rfl

/-- Reading a source comes upon the fault at which cutting it ends, or upon an error before that; every
error speaks of what the source is cut into. -/
theorem readProgram_agrees_with_tokenize (source : List Char) :
    (∀ fault, tokenize source = .error fault → ∃ error, readProgram source = .error error ∧
      (error = .lexical fault ∨
        (∀ other, error ≠ .lexical other) ∧ error.span.stop ≤ fault.span.start)) ∧
    (∀ tokens, tokenize source = .ok tokens →
      ∀ fault, readProgram source ≠ .error (.lexical fault)) ∧
    ∀ error, readProgram source = .error error → error.SpeaksOf source := by
  have speaks {error : SyntaxError} (read : readProgram source = .error error) :
      error.SpeaksOf source := by
    rcases refuses_of_readProgram read with
      ⟨fault, scanned, rfl⟩ | ⟨tokens, middle, scanned, whole, refuses⟩
    · exact tokenize_eq_error_iff.2 (by rw [scanned]; rfl)
    · exact refuses.speaksOf whole scanned
  refine ⟨fun fault cut => ?_, fun tokens cut fault read => ?_, fun error => speaks⟩
  · have found := tokenize_eq_error_iff.1 cut
    cases read : readProgram source with
    | ok tree =>
      -- what is read is cut to its end
      obtain ⟨tokens, offset, _, scanned, _⟩ := derives_of_readProgram read
      rw [scanned, Stream.error?_after] at found
      cases found
    | error error =>
      refine ⟨error, rfl, ?_⟩
      rcases refuses_of_readProgram read with
        ⟨other, scanned, rfl⟩ | ⟨tokens, middle, scanned, whole, refuses⟩
      · rw [scanned] at found
        exact .inl (congrArg SyntaxError.lexical (Option.some.inj found))
      · have cuts := Stream.cuts_scan 0 source
        rw [scanned, Stream.error?_after] at found
        rw [scanned] at cuts
        exact refuses.before_fault whole found cuts
  · have broken : tokenize source = .error fault := speaks read
    rw [cut] at broken
    cases broken

end Scriptlet
