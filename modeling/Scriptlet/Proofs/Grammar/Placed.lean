import Scriptlet.Proofs.Grammar.Extent

/-! Every error of reading a program has a span within the source. -/

set_option autoImplicit false

namespace Scriptlet

namespace Reader

variable {holds : Span → Prop} {reader : Reader}

theorem span_of_ahead (whole : reader.Whole) (spans : reader.ahead.AllSpans holds) :
    holds reader.current.span := by
  unfold ahead at spans
  split at spans
  · next ends =>
    -- the end of input in hand stands at a single offset
    rcases whole with ⟨offset, ending⟩ | ⟨goesOn, _⟩
    · rw [ending] at spans ⊢
      exact spans
    · exact absurd ends goesOn
  · exact spans.1

/-- An error stands at the token in hand, at a fault after it, or at an expression ahead. -/
theorem Refuses.isWithin {source : List Char} {tokens : List Token} {error : SyntaxError}
    (refuses : reader.Refuses error) (whole : reader.Whole)
    (cuts : Stream.Cuts 0 source (Stream.after tokens reader.ahead)) :
    error.span.IsWithin source := by
  have start : 0 = byteWidth [] := rfl
  have spans : reader.ahead.AllSpans (Span.IsWithin source) :=
    (Stream.allSpans_after.1 (cuts.allSpans start)).2
  cases refuses with
  | unexpectedToken | expectedExpression | expectedIdentifier | controlOutsideLoop =>
    exact span_of_ahead whole spans
  | @invalidTarget _ _ low _ _ gives groups =>
    rw [(gives.whole whole).2] at cuts spans
    rw [← Stream.after_append] at cuts
    have order := cuts.inOrder.of_sublist (List.sublist_append_right tokens low)
    exact (groups.covers order).isWithin order (Stream.allSpans_after.1 spans).1
  | lexical goesOn fault =>
    rw [ahead, if_neg goesOn, fault] at spans
    exact spans.2

end Reader

theorem SyntaxError.isWithin {source : List Char} {error : SyntaxError}
    (read : readProgram source = .error error) : error.span.IsWithin source := by
  rcases refuses_of_readProgram read with
    ⟨fault, scanned, rfl⟩ | ⟨tokens, middle, scanned, whole, refuses⟩
  · have spans := Stream.allSpans_scan source
    rw [scanned] at spans
    exact spans
  · have cuts := Stream.cuts_scan 0 source
    rw [scanned] at cuts
    exact refuses.isWithin whole cuts

end Scriptlet
