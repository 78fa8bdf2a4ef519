import Scriptlet.Proofs.Grammar.Giving
import Scriptlet.Proofs.Token.Following

/-! There is one way to cut a text. Cut texts can be moved, continued, and taken out of longer ones. -/

set_option autoImplicit false

namespace Scriptlet

def Token.shift (token : Token) (distance : Nat) : Token :=
  { token with span := token.span.shift distance }

def Token.InOrder (tokens : List Token) : Prop :=
  (∀ token ∈ tokens, token.span.start ≤ token.span.stop) ∧
    tokens.Pairwise fun earlier later => earlier.span.stop ≤ later.span.start

def LexError.shift (error : LexError) (distance : Nat) : LexError :=
  { error with span := error.span.shift distance }

namespace Stream

def shift (distance : Nat) : Stream → Stream
  | token head rest => .token (head.shift distance) (rest.shift distance)
  | ending offset => .ending (offset + distance)
  | fault error => .fault (error.shift distance)
  | exhausted => .exhausted

theorem AllSpans.imp {holds other : Span → Prop} {stream : Stream} (spans : stream.AllSpans holds)
    (implies : ∀ span, holds span → other span) : stream.AllSpans other := by
  induction stream with
  | token head rest ih => exact ⟨implies _ spans.1, ih spans.2⟩
  | ending | fault => exact implies _ spans
  | exhausted => trivial

namespace Cuts

variable {offset : Nat} {text : List Char} {stream : Stream}

/-- There is one stream that a text is cut into. -/
theorem eq_scan (cuts : Cuts offset text stream) : stream = scan offset text := by
  induction cuts with
  | @token offset start stop gap tail rest first kind stream isGap isStart found start_eq stop_eq _
      ih =>
    have trivia := splitTrivia_append_of_isGap isGap (splitTrivia_of_isStart isStart)
    -- trivia are split off in one way, and what follows them is read in one way
    rw [scan]
    split
    · next none =>
      rw [trivia] at none
      cases none
    · next found' =>
      rw [trivia] at found'
      cases found'
      split
      · next same =>
        rw [found] at same
        cases same
        simp only [trivia, ← start_eq, ← stop_eq, ← ih]
      · next same =>
        rw [found] at same
        cases same
  | @ending offset stop gap isGap stop_eq =>
    have trivia := splitTrivia_append_of_isGap isGap rfl
    rw [List.append_nil] at trivia
    rw [scan]
    split
    · rw [trivia, stop_eq]
    · next none =>
      rw [trivia] at none
      cases none
  | @fault offset start gap tail rest first cause isGap isStart found start_eq =>
    have trivia := splitTrivia_append_of_isGap isGap (splitTrivia_of_isStart isStart)
    rw [scan]
    split
    · next none =>
      rw [trivia] at none
      cases none
    · next found' =>
      rw [trivia] at found'
      cases found'
      split
      · next same =>
        rw [found] at same
        cases same
      · next same =>
        rw [found] at same
        cases same
        rw [trivia, ← start_eq]

theorem shift (cuts : Cuts offset text stream) (distance : Nat) :
    Cuts (offset + distance) text (stream.shift distance) := by
  induction cuts with
  | @token offset start stop gap tail rest first kind stream isGap isStart found start_eq stop_eq _
      ih =>
    have starts : start + distance = offset + distance + byteWidth gap := by omega
    have stops : stop + distance = start + distance + byteWidth (first :: tail) := by omega
    exact .token isGap isStart found starts stops ih
  | ending isGap stop_eq => exact .ending isGap (by omega)
  | @fault offset start gap tail rest first cause isGap isStart found start_eq =>
    have starts : start + distance = offset + distance + byteWidth gap := by omega
    have moved : Stream.shift distance
          (.fault ⟨cause, ⟨start, start + byteWidth (first :: tail)⟩⟩) =
        .fault ⟨cause, ⟨start + distance, start + distance + byteWidth (first :: tail)⟩⟩ := by
      rw [Nat.add_right_comm start distance]
      rfl
    rw [moved]
    exact .fault isGap isStart found starts

/-- Where a text starts does not matter to what it is cut into. -/
theorem eq_shift (cuts : Cuts offset text stream) : stream = (scan 0 text).shift offset := by
  rw [cuts.eq_scan, ((cuts_scan 0 text).shift offset).eq_scan, Nat.zero_add]

end Cuts

/-- A text in two parts: the first is cut into some tokens and ends there, the second is cut into what
follows them. -/
structure Split (offset : Nat) (text : List Char) (tokens : List Token) (stream : Stream)
    (read rest : List Char) : Prop where
  whole : text = read ++ rest
  before : Cuts offset read (after tokens (.ending (offset + byteWidth read)))
  behind : Cuts (offset + byteWidth read) rest stream

theorem Split.nil {offset : Nat} {text : List Char} {stream : Stream}
    (cuts : Cuts offset text stream) : Split offset text [] stream [] text :=
  ⟨rfl, .ending .nil rfl, cuts⟩

theorem Split.cons {offset start stop : Nat} {gap tail text read rest : List Char} {first : Char}
    {kind : Kind} {tokens : List Token} {stream : Stream}
    (split : Split stop text tokens stream read rest)
    (isGap : IsGap (first :: (tail ++ text)) gap) (isStart : IsStart first (tail ++ text))
    (found : Lexeme.read first (tail ++ text) = .token kind tail text)
    (start_eq : start = offset + byteWidth gap)
    (stop_eq : stop = start + byteWidth (first :: tail)) :
    offset + byteWidth (gap ++ first :: (tail ++ read)) = stop + byteWidth read ∧
      Split offset (gap ++ first :: (tail ++ text))
        (⟨kind, String.ofList (first :: tail), ⟨start, stop⟩⟩ :: tokens) stream
        (gap ++ first :: (tail ++ read)) rest := by
  obtain ⟨rfl, before, behind⟩ := split
  have width : offset + byteWidth (gap ++ first :: (tail ++ read)) = stop + byteWidth read := by
    rw [← List.cons_append, byteWidth_append, byteWidth_append, stop_eq, start_eq]
    omega
  -- a part of the rest stands where the rest did
  have replaces : Replaces read (read ++ rest) := .of_append
  have alone := Lexeme.read_of_replaces found replaces
  have begins := isStart.replace (replaces.append_left tail)
  refine ⟨width, by simp, ?_, ?_⟩
  · rw [width]
    exact .token (isGap.of_isStart isStart) begins alone start_eq stop_eq before
  · rw [width]
    exact behind

namespace Cuts

variable {offset : Nat} {text : List Char} {stream : Stream}

theorem exists_split {tokens more : List Token} (holds : Nat → Prop)
    (cuts : Cuts offset text (after (tokens ++ more) stream))
    (base : ∀ {offset : Nat} {text : List Char}, Cuts offset text (after more stream) →
      ∃ read rest, Split offset text more stream read rest ∧ holds (offset + byteWidth read)) :
    ∃ read rest, Split offset text (tokens ++ more) stream read rest ∧
      holds (offset + byteWidth read) := by
  induction tokens generalizing offset text with
  | nil => exact base cuts
  | cons head tokens ih =>
    cases cuts with
    | @token _ start stop gap tail rest first kind _ isGap isStart found start_eq stop_eq cuts =>
      obtain ⟨read, rest, split, reached⟩ := ih cuts
      obtain ⟨width, whole⟩ := split.cons isGap isStart found start_eq stop_eq
      exact ⟨_, rest, whole, width ▸ reached⟩

theorem drop {tokens : List Token} (cuts : Cuts offset text (after tokens stream)) :
    ∃ read rest, text = read ++ rest ∧ Cuts (offset + byteWidth read) rest stream := by
  rw [← List.append_nil tokens] at cuts
  obtain ⟨read, rest, split, _⟩ := cuts.exists_split (fun _ => True) fun cuts =>
    ⟨[], _, .nil cuts, trivial⟩
  exact ⟨read, rest, split.whole, split.behind⟩

/-- A text that starts with a line feed comes after trivia that reach so far. -/
theorem feed {gap : List Char} (isGap : IsGap [] gap)
    (cuts : Cuts (offset + byteWidth gap + 1) text stream) :
    Cuts offset (gap ++ '\n' :: text) stream := by
  have width (more : List Char) :
      byteWidth (gap ++ '\n' :: more) = byteWidth gap + 1 + byteWidth more := by
    rw [byteWidth_append, byteWidth, Nat.add_assoc]
    rfl
  cases cuts with
  | token more isStart found start_eq stop_eq cuts =>
    rw [← List.cons_append, ← List.append_assoc]
    refine .token (isGap.append_feed more) isStart found ?_ stop_eq cuts
    rw [start_eq, width]
    omega
  | ending more stop_eq =>
    refine .ending (isGap.append_feed more) ?_
    rw [stop_eq, width]
    omega
  | fault more isStart found start_eq =>
    rw [← List.cons_append, ← List.append_assoc]
    refine .fault (isGap.append_feed more) isStart found ?_
    rw [start_eq, width]
    omega

theorem append {tokens : List Token} {stop : Nat} (cuts : Cuts offset text (after tokens (.ending stop)))
    {second : List Char} (other : Cuts (offset + byteWidth text + 1) second stream) :
    Cuts offset (text ++ '\n' :: second) (after tokens stream) := by
  induction tokens generalizing offset text with
  | nil =>
    cases cuts with
    | ending isGap _ => exact feed isGap other
  | cons head tokens ih =>
    cases cuts with
    | @token _ start stop gap tail rest first kind _ isGap isStart found start_eq stop_eq cuts =>
      have replaces := Replaces.append_feed rest second
      have width : offset + byteWidth (gap ++ first :: (tail ++ rest)) = stop + byteWidth rest := by
        rw [byteWidth_append, ← List.cons_append, byteWidth_append, stop_eq, start_eq]
        omega
      rw [width] at other
      rw [List.append_assoc, List.cons_append, List.append_assoc]
      exact .token (isGap.of_isStart isStart) (isStart.replace (replaces.append_left tail))
        (Lexeme.read_of_replaces found replaces) start_eq stop_eq (ih cuts other)

/-- A text can be split where a token stops. -/
theorem split_behind {tokens : List Token} {last : Token}
    (cuts : Cuts offset text (after (tokens ++ [last]) stream)) :
    ∃ read rest, Split offset text (tokens ++ [last]) stream read rest ∧
      last.span.stop = offset + byteWidth read := by
  refine cuts.exists_split (last.span.stop = ·) fun cuts => ?_
  cases cuts with
  | token isGap isStart found start_eq stop_eq cuts =>
    obtain ⟨width, split⟩ := (Split.nil cuts).cons isGap isStart found start_eq stop_eq
    exact ⟨_, _, split, width.symm⟩

/-- The text of some tokens in a row, cut at its first and its last character, and also with the gap
before them. -/
theorem take {head : Token} {tokens : List Token}
    (cuts : Cuts offset text (after (head :: tokens) stream)) :
    ∃ gap part rest stop, text = gap ++ (part ++ rest) ∧
      head.span.start = offset + byteWidth gap ∧ stop = head.span.start + byteWidth part ∧
      (∀ last ∈ (head :: tokens).getLast?, last.span.stop = stop) ∧
      Cuts head.span.start part (after (head :: tokens) (.ending stop)) ∧
      Cuts offset (gap ++ part) (after (head :: tokens) (.ending stop)) := by
  have whole := List.dropLast_concat_getLast (List.cons_ne_nil head tokens)
  rw [← whole] at cuts
  obtain ⟨read, rest, split, reached⟩ := cuts.split_behind
  rw [whole] at split
  obtain ⟨rfl, before, _⟩ := split
  cases before with
  | @token _ start stop gap tail more first kind _ isGap isStart found start_eq stop_eq later =>
    have bare : Cuts start ([] ++ first :: (tail ++ more)) _ :=
      .token .nil isStart found rfl stop_eq later
    have width : offset + byteWidth (gap ++ first :: (tail ++ more)) =
        start + byteWidth (first :: (tail ++ more)) := by
      rw [byteWidth_append, start_eq, Nat.add_assoc]
    refine ⟨gap, first :: (tail ++ more), rest, _, by simp, start_eq, width, ?_, bare,
      .token isGap isStart found start_eq stop_eq later⟩
    rw [List.getLast?_eq_some_getLast (List.cons_ne_nil _ tokens)]
    rintro _ ⟨⟩
    exact reached

theorem allSpans_from (cuts : Cuts offset text stream) :
    stream.AllSpans fun span => offset ≤ span.start ∧ span.start ≤ span.stop := by
  induction cuts with
  | @token offset start stop gap tail rest first kind stream _ _ _ start_eq stop_eq _ ih =>
    have before : offset ≤ start := by omega
    have forward : start ≤ stop := by omega
    exact ⟨⟨before, forward⟩, ih.imp fun span found => ⟨by omega, found.2⟩⟩
  | ending _ stop_eq => exact ⟨by simp only [Span.point]; omega, Nat.le_refl _⟩
  | fault _ _ _ start_eq => exact ⟨by simp only; omega, Nat.le_add_right _ _⟩

theorem inOrder {tokens : List Token} (cuts : Cuts offset text (after tokens stream)) :
    Token.InOrder tokens := by
  induction tokens generalizing offset text with
  | nil => exact ⟨List.forall_mem_nil _, .nil⟩
  | cons head tokens ih =>
    cases cuts with
    | @token _ start stop gap tail rest first kind _ isGap isStart found start_eq stop_eq cuts =>
      have later := (allSpans_after.1 cuts.allSpans_from).1
      obtain ⟨forward, ordered⟩ := ih cuts
      have here : start ≤ stop := by omega
      exact ⟨List.forall_mem_cons.2 ⟨here, forward⟩,
        List.pairwise_cons.2 ⟨fun token member => (later token member).1, ordered⟩⟩

theorem start_lt_stop {tokens : List Token} (cuts : Cuts offset text (after tokens stream)) :
    ∀ token ∈ tokens, token.span.start < token.span.stop := by
  induction tokens generalizing offset text with
  | nil => exact List.forall_mem_nil _
  | cons head tokens ih =>
    cases cuts with
    | @token _ start stop gap tail rest first kind _ isGap isStart found start_eq stop_eq cuts =>
      have positive := byteWidth_pos (List.cons_ne_nil first tail)
      have here : start < stop := by omega
      exact List.forall_mem_cons.2 ⟨here, ih cuts⟩

theorem stop_eq {tokens : List Token} {stop : Nat}
    (cuts : Cuts offset text (after tokens (.ending stop))) : stop = offset + byteWidth text := by
  induction tokens generalizing offset text with
  | nil =>
    cases cuts with
    | ending _ stop_eq => exact stop_eq
  | cons head tokens ih =>
    cases cuts with
    | @token _ start _ gap tail rest first kind _ isGap isStart found start_eq stop_eq cuts =>
      rw [ih cuts, byteWidth_append, ← List.cons_append, byteWidth_append]
      omega

end Cuts

/-- Behind a source that is cut to its end and a line feed, another one is cut as it is by itself. -/
theorem scan_append_line {first : List Char} {tokens : List Token} {stop : Nat}
    (scanned : scan 0 first = after tokens (.ending stop)) (second : List Char) :
    scan 0 (first ++ '\n' :: second) =
      after tokens ((scan 0 second).shift (byteWidth first + 1)) := by
  have cuts := cuts_scan 0 first
  have moved := (cuts_scan 0 second).shift (byteWidth first + 1)
  rw [scanned] at cuts
  rw [← Nat.add_assoc] at moved
  exact (cuts.append moved).eq_scan.symm

end Stream

end Scriptlet
