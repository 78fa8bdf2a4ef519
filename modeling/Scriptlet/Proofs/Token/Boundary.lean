import Scriptlet.Proofs.Token.Cutting

/-! A source can be cut in two where a token starts or stops, and each part into tokens by itself. -/

set_option autoImplicit false

namespace Scriptlet

theorem IsGap.before_end {after gap : List Char} (isGap : IsGap after gap) : IsGap [] gap := by
  induction isGap with
  | nil => exact .nil
  | blank space _ ih => exact .blank space ih
  | @comment text gap noFeed feed _ ih =>
    refine .comment noFeed (fun c isHead => ?_) ih
    cases gap with
    | nil => cases isHead
    | cons => exact feed c isHead

namespace Stream

def StartsAt (start : Nat) : Stream → Prop
  | token head _ => head.span.start = start
  | ending offset => offset = start
  | fault error => error.span.start = start
  | exhausted => False

theorem Cuts.split_before {offset : Nat} {text : List Char} {stream : Stream} {tokens : List Token}
    (cuts : Cuts offset text (after tokens stream)) :
    ∃ read rest, Split offset text tokens stream read rest ∧
      stream.StartsAt (offset + byteWidth read) := by
  rw [← List.append_nil tokens] at cuts ⊢
  refine cuts.exists_split (stream.StartsAt ·) fun cuts => ?_
  -- what is before the start is the gap
  cases cuts with
  | @token _ start stop gap tail rest first kind _ isGap isStart found start_eq stop_eq later =>
    have bare : Cuts start ([] ++ first :: (tail ++ rest)) _ :=
      .token .nil isStart found rfl stop_eq later
    subst start_eq
    exact ⟨gap, _, ⟨rfl, .ending isGap.before_end rfl, bare⟩, rfl⟩
  | @ending _ stop gap isGap stop_eq =>
    subst stop_eq
    exact ⟨_, [], ⟨(List.append_nil _).symm, .ending isGap rfl, .ending .nil rfl⟩, rfl⟩
  | @fault _ start gap tail rest first cause isGap isStart found start_eq =>
    have bare : Cuts start ([] ++ first :: (tail ++ rest)) _ := .fault .nil isStart found rfl
    subst start_eq
    exact ⟨gap, _, ⟨rfl, .ending isGap.before_end rfl, bare⟩, rfl⟩

/-- An offset where a token starts or stops, or where the error starts. -/
def IsBoundary (stream : Stream) (offset : Nat) : Prop :=
  (∃ token ∈ stream.tokens, token.span.start = offset ∨ token.span.stop = offset) ∨
    ∃ error, stream.error? = some error ∧ error.span.start = offset

theorem exists_after_of_mem {stream : Stream} {token : Token} (member : token ∈ stream.tokens) :
    (∃ before rest, stream = after before (.token token rest)) ∨
      ∃ before stop, stream = after before (.ending stop) ∧ token = Token.ending stop := by
  induction stream with
  | token head rest ih =>
    rcases List.mem_cons.1 member with rfl | later
    · exact .inl ⟨[], rest, rfl⟩
    · rcases ih later with ⟨before, more, rfl⟩ | ⟨before, stop, rfl, same⟩
      · exact .inl ⟨head :: before, more, rfl⟩
      · exact .inr ⟨head :: before, stop, rfl, same⟩
  | ending stop => exact .inr ⟨[], stop, rfl, List.mem_singleton.1 member⟩
  | fault | exhausted => cases member

theorem Cuts.exists_split_of_isBoundary {text : List Char} {stream : Stream} {boundary : Nat}
    (cuts : Cuts 0 text stream) (isBoundary : stream.IsBoundary boundary) :
    ∃ read rest tokens more, Split 0 text tokens more read rest ∧ stream = after tokens more ∧
      byteWidth read = boundary := by
  have before {tokens : List Token} {more : Stream} (whole : stream = after tokens more)
      (starts : ∀ start, more.StartsAt start → start = boundary) :
      ∃ read rest tokens more, Split 0 text tokens more read rest ∧ stream = after tokens more ∧
        byteWidth read = boundary := by
    obtain ⟨read, rest, split, reached⟩ := (whole ▸ cuts).split_before
    exact ⟨read, rest, tokens, more, split, whole, (Nat.zero_add _).symm.trans (starts _ reached)⟩
  rcases isBoundary with ⟨token, member, isPlace⟩ | ⟨error, found, rfl⟩
  · rcases exists_after_of_mem member with ⟨tokens, more, whole⟩ | ⟨tokens, stop, whole, rfl⟩
    · rcases isPlace with rfl | rfl
      · exact before whole fun start reached => reached.symm
      · have later : stream = after (tokens ++ [token]) more := by
          rw [whole, after_append]
          rfl
        obtain ⟨read, rest, split, reached⟩ := (later ▸ cuts).split_behind
        exact ⟨read, rest, _, more, split, later, (Nat.zero_add _).symm.trans reached.symm⟩
    · have same : stop = boundary := by
        rcases isPlace with rfl | rfl <;> rfl
      exact before whole fun start reached => reached.symm.trans same
  · obtain ⟨tokens, whole⟩ := exists_after_of_error? found
    exact before whole fun start reached => reached.symm

end Stream

/-- A source is cut up to a boundary as it is by itself up to there, and from there as what is left of
it is by itself, moved to the boundary. -/
theorem scan_resumes_at_boundary {source : List Char} {boundary : Nat}
    (isBoundary : (Stream.scan 0 source).IsBoundary boundary) :
    ∃ read rest tokens, takeBytes? boundary source = some read ∧
      dropBytes? boundary source = some rest ∧
      tokenize read = .ok (tokens ++ [Token.ending boundary]) ∧
      Stream.scan 0 source = Stream.after tokens ((Stream.scan 0 rest).shift boundary) := by
  obtain ⟨read, rest, tokens, more, ⟨rfl, before, behind⟩, whole, rfl⟩ :=
    (Stream.cuts_scan 0 source).exists_split_of_isBoundary isBoundary
  rw [Nat.zero_add] at before behind
  refine ⟨read, rest, tokens, takeBytes?_append read rest, dropBytes?_append read rest, ?_, ?_⟩
  · exact tokenize_of_scan before.eq_scan.symm
  · rw [whole, behind.eq_shift]

/-- At an error the part before it is cut to its end, with the comment and its line feed in that part. -/
theorem scan_resumes_at_fault :
    let source := "ab//c\n\"d".toList
    (Stream.scan 0 source).IsBoundary 6 ∧
      ∃ read rest tokens, takeBytes? 6 source = some read ∧ dropBytes? 6 source = some rest ∧
        tokenize read = .ok (tokens ++ [Token.ending 6]) ∧
        Stream.scan 0 source = Stream.after tokens ((Stream.scan 0 rest).shift 6) := by
  intro source
  have found : (Stream.scan 0 source).error? = some ⟨.unterminatedString, ⟨6, 8⟩⟩ := by
    decide +kernel
  have isBoundary : (Stream.scan 0 source).IsBoundary 6 := .inr ⟨_, found, rfl⟩
  exact ⟨isBoundary, scan_resumes_at_boundary isBoundary⟩

end Scriptlet
