import Scriptlet.Proofs.Grammar.Relocation
import Scriptlet.Proofs.Token.Cutting

/-! The trivia between the tokens of a source can be replaced by any that begin with a blank. The source
is then read to the same, at other places.
-/

set_option autoImplicit false

namespace Scriptlet

def unplaced : Nat →o Nat := OrderHom.const Nat 0

def SyntaxError.bare (error : SyntaxError) : SyntaxError := error.relocate unplaced

/-- Trivia that begin with a blank. -/
structure IsSpacing (after gap : List Char) : Prop where
  isGap : IsGap after gap
  blank : ∃ c ∈ gap.head?, isSpace c = true

namespace IsSpacing

variable {after gap : List Char}

theorem head (isSpacing : IsSpacing after gap) (more : List Char) :
    ∀ c ∈ (gap ++ more).head?, isSpace c = true := by
  obtain ⟨c, isHead, space⟩ := isSpacing.blank
  rw [List.head?_append, Option.mem_def.1 isHead]
  rintro _ ⟨⟩
  exact space

theorem head_textOf {pieces : List Piece} {last : List Char}
    (gaps : ∀ piece ∈ pieces, IsSpacing piece.token.lexeme.toList piece.gap)
    (closing : IsSpacing [] last) : ∀ c ∈ (Piece.textOf pieces ++ last).head?, isSpace c = true := by
  cases pieces with
  | nil =>
    have blank := closing.head []
    rw [List.append_nil] at blank
    exact blank
  | cons piece pieces =>
    rw [Piece.textOf_cons, Piece.text, List.append_assoc, List.append_assoc]
    exact (gaps piece List.mem_cons_self).head _

end IsSpacing

namespace Stream

theorem tokens_relocate (stream : Stream) (move : Nat →o Nat) :
    (stream.relocate move).tokens = stream.tokens.map (·.relocate move) := by
  induction stream with
  | token head rest ih => exact congrArg (_ :: ·) ih
  | ending | fault | exhausted => rfl

theorem error?_relocate (stream : Stream) (move : Nat →o Nat) :
    (stream.relocate move).error? = stream.error?.map (·.relocate move) := by
  induction stream with
  | token head rest ih => exact ih
  | ending | fault | exhausted => rfl

/-- With other trivia between them, the same tokens are cut off, at other places. -/
theorem Cuts.respace {offset stop : Nat} {text : List Char} {tokens : List Token}
    (cuts : Cuts offset text (after tokens (.ending stop))) {pieces : List Piece}
    {last : List Char} (same : pieces.map Piece.token = tokens)
    (gaps : ∀ piece ∈ pieces, IsSpacing piece.token.lexeme.toList piece.gap)
    (closing : IsSpacing [] last) (start : Nat) :
    ∃ stream, Cuts start (Piece.textOf pieces ++ last) stream ∧
      stream.relocate unplaced = (after tokens (.ending stop)).relocate unplaced := by
  induction pieces generalizing offset start text tokens with
  | nil =>
    subst same
    exact ⟨_, .ending closing.isGap rfl, rfl⟩
  | cons piece pieces ih =>
    subst same
    obtain ⟨gap, token⟩ := piece
    obtain ⟨here, later⟩ := List.forall_mem_cons.1 gaps
    cases cuts with
    | @token _ _ _ _ tail rest first kind _ _ isStart found _ _ cuts =>
      obtain ⟨stream, moved, bare⟩ :=
        ih cuts rfl later (start + byteWidth gap + byteWidth (first :: tail))
      -- a blank follows the token, whatever did before
      have replaces : Replaces (Piece.textOf pieces ++ last) rest :=
        fun c isHead => .inl (IsSpacing.head_textOf later closing c isHead)
      have alone := Lexeme.read_of_replaces found replaces
      have begins := isStart.replace (replaces.append_left tail)
      have isGap : IsGap (first :: tail) gap := by
        have isGap := here.isGap
        rwa [String.toList_ofList] at isGap
      have whole := Cuts.token (isGap.of_isStart (isStart.replace .of_append)) begins alone rfl rfl moved
      rw [Piece.textOf_cons, Piece.text, String.toList_ofList, List.append_assoc, List.append_assoc]
      refine ⟨_, whole, ?_⟩
      rw [relocate, bare]
      rfl

end Stream

theorem Reader.exists_start_of_same {first second : List Char}
    (same : (Stream.scan 0 first).relocate unplaced = (Stream.scan 0 second).relocate unplaced)
    {reader : Reader} (started : Reader.start first = .ok reader) :
    ∃ other, Reader.start second = .ok other ∧
      other.relocate unplaced = reader.relocate unplaced := by
  unfold start at started ⊢
  cases cutFirst : Stream.scan 0 first with
  | token head rest =>
    rw [cutFirst] at same started
    cases started
    cases cutSecond : Stream.scan 0 second with
    | token other more =>
      rw [cutSecond] at same
      obtain ⟨current, ahead⟩ := Stream.token.inj same
      exact ⟨_, rfl, by rw [relocate, relocate, current, ahead]⟩
    | ending | fault | exhausted =>
      rw [cutSecond] at same
      cases same
  | ending stop =>
    rw [cutFirst] at same started
    cases started
    cases cutSecond : Stream.scan 0 second with
    | ending other => exact ⟨_, rfl, rfl⟩
    | token | fault | exhausted =>
      rw [cutSecond] at same
      cases same
  | fault error =>
    rw [cutFirst] at started
    cases started
  | exhausted =>
    have whole := (Stream.cuts_scan 0 first).whole
    rw [cutFirst] at whole
    exact whole.elim

def bareResult : Except SyntaxError Node → Except SyntaxError Node
  | .ok tree => .ok tree.bare
  | .error error => .error error.bare

/-- A source is read to what its tokens are read to at any other places. -/
theorem bareResult_readProgram {source : List Char} {reader : Reader}
    (started : Reader.start source = .ok reader) :
    bareResult (readProgram source) = (reader.relocate unplaced).program.1 := by
  have moved := Parse.relocates_wholeProgram (Eq.refl (unplaced 0)) reader.fuel
    (reader.relocate unplaced).fuel reader reader.program_ends
    (reader.relocate unplaced).program_ends
  have read : readProgram source = reader.program.1 := by rw [readProgram, started]
  rw [read]
  cases outcome : Parse.wholeProgram reader.fuel reader with
  | done tree reached =>
    rw [outcome] at moved
    have first : reader.program = (.ok tree, reached) :=
      (Outcome.result_eq_ok_iff reader.program_ends).mpr outcome
    have second : (reader.relocate unplaced).program = _ :=
      (Outcome.result_eq_ok_iff (reader.relocate unplaced).program_ends).mpr moved
    rw [first, second]
    rfl
  | failed error reached =>
    rw [outcome] at moved
    have first : reader.program = (.error error, reached) :=
      (Outcome.result_eq_error_iff reader.program_ends).mpr outcome
    have second : (reader.relocate unplaced).program = _ :=
      (Outcome.result_eq_error_iff (reader.relocate unplaced).program_ends).mpr moved
    rw [first, second]
    rfl
  | cutOff => exact absurd outcome reader.program_ends

/-- With any spacing between its tokens, before and after them, a source is cut into the same tokens and
read to the same, at other places. -/
theorem readProgram_respaced {source : List Char} {tokens : List Token}
    (cut : tokenize source = .ok tokens) {pieces : List Piece} {last : List Char}
    (same : pieces.map Piece.token = tokens.dropLast)
    (gaps : ∀ piece ∈ pieces, IsSpacing piece.token.lexeme.toList piece.gap)
    (closing : IsSpacing [] last) :
    (∃ others, tokenize (Piece.textOf pieces ++ last) = .ok others ∧
      others.map Token.kind = tokens.map Token.kind ∧
      others.map Token.lexeme = tokens.map Token.lexeme) ∧
    bareResult (readProgram (Piece.textOf pieces ++ last)) = bareResult (readProgram source) := by
  obtain ⟨before, stop, scanned, rfl⟩ := exists_after_of_tokenize cut
  rw [List.dropLast_concat] at same
  have cuts := Stream.cuts_scan 0 source
  rw [scanned] at cuts
  obtain ⟨stream, moved, alike⟩ := cuts.respace same gaps closing 0
  -- there is one stream that a text is cut into, so the respaced text is cut into this one
  rw [moved.eq_scan] at alike
  constructor
  · have noError := congrArg Stream.error? alike
    rw [Stream.error?_relocate, Stream.error?_relocate, Stream.error?_after,
      Stream.error?, Option.map_none, Option.map_eq_none_iff] at noError
    have others := congrArg Stream.tokens alike
    rw [Stream.tokens_relocate, Stream.tokens_relocate, Stream.tokens_after] at others
    refine ⟨_, by rw [tokenize, noError], ?_, ?_⟩
    · have kinds := congrArg (List.map Token.kind) others
      rwa [List.map_map, List.map_map] at kinds
    · have lexemes := congrArg (List.map Token.lexeme) others
      rwa [List.map_map, List.map_map] at lexemes
  -- reading depends on the two streams up to places, and up to places they are the same
  · have starts : ∃ reader, Reader.start source = .ok reader := by
      rw [Reader.start, scanned]
      cases before <;> exact ⟨_, rfl⟩
    obtain ⟨reader, started⟩ := starts
    rw [← scanned] at alike
    obtain ⟨other, startedOther, bare⟩ := Reader.exists_start_of_same alike.symm started
    rw [bareResult_readProgram started, bareResult_readProgram startedOther, bare]

/-- Comments can stand around a slash, and the last one can end with the source. -/
theorem readProgram_respaced_division :
    let pieces : List Piece := [⟨" ".toList, ⟨.identifier "a", "a", ⟨0, 1⟩⟩⟩,
      ⟨"\t// b\n".toList, ⟨.mark .slash, "/", ⟨1, 2⟩⟩⟩, ⟨" //\n".toList, ⟨.identifier "b", "b", ⟨2, 3⟩⟩⟩]
    let relaid := Piece.textOf pieces ++ "\r//".toList
    (∃ others, tokenize relaid = .ok others ∧
      others.map Token.kind = [.identifier "a", .mark .slash, .identifier "b", .endOfInput] ∧
      others.map Token.lexeme = ["a", "/", "b", ""]) ∧
    bareResult (readProgram relaid) = bareResult (readProgram "a/b".toList) := by
  have cut : tokenize "a/b".toList = .ok [⟨.identifier "a", "a", ⟨0, 1⟩⟩,
      ⟨.mark .slash, "/", ⟨1, 2⟩⟩, ⟨.identifier "b", "b", ⟨2, 3⟩⟩, Token.ending 3] := by
    decide +kernel
  have isSpacing {after gap : List Char} (split : splitTrivia (gap ++ after) = (gap, after))
      (blank : gap.head?.any isSpace = true) : IsSpacing after gap := by
    have isGap := isGap_splitTrivia (gap ++ after)
    rw [split] at isGap
    exact ⟨isGap, (Option.any_eq_true _ _).1 blank⟩
  refine readProgram_respaced cut rfl ?_ (isSpacing rfl rfl)
  simp only [List.forall_mem_cons]
  exact ⟨isSpacing rfl rfl, isSpacing rfl rfl, isSpacing rfl rfl, List.forall_mem_nil _⟩

end Scriptlet
