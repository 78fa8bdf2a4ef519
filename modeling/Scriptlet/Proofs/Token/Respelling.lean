import Scriptlet.Proofs.Token.Boundary

/-! A token of a source can give way to other text that starts with its character: what is before it is
cut as it was.
-/

set_option autoImplicit false

namespace Scriptlet.Stream

/-- What a text is cut into before a character: some tokens and a gap. They are the same where the text
ends there, and where the character goes on in any way that starts there. -/
structure Precedes (offset : Nat) (tokens : List Token) (read : List Char) (first : Char) : Prop where
  alone : Cuts offset read (after tokens (.ending (offset + byteWidth read)))
  followed : ∀ rest token stream,
    Cuts (offset + byteWidth read) (first :: rest) (.token token stream) →
    token.span.start = offset + byteWidth read →
    Cuts offset (read ++ first :: rest) (after tokens (.token token stream))

theorem Cuts.token_without_gap {offset : Nat} {text : List Char} {token : Token} {stream : Stream}
    (cuts : Cuts offset text (.token token stream)) (starts : token.span.start = offset) :
    ∃ first tail rest kind, text = first :: (tail ++ rest) ∧ IsStart first (tail ++ rest) ∧
      Lexeme.read first (tail ++ rest) = .token kind tail rest ∧
      token = ⟨kind, String.ofList (first :: tail), ⟨offset, offset + byteWidth (first :: tail)⟩⟩ ∧
      Cuts (offset + byteWidth (first :: tail)) rest stream := by
  cases cuts with
  | @token _ start stop gap tail rest first kind _ isGap isStart found start_eq stop_eq later =>
    have noGap : gap = [] := by
      by_contra nonempty
      have positive := byteWidth_pos nonempty
      simp only at starts
      omega
    subst noGap stop_eq
    obtain rfl : start = offset := starts
    exact ⟨first, tail, rest, kind, rfl, isStart, found, rfl, later⟩

namespace Precedes

theorem of_isGap {gap rest : List Char} {first : Char} (isGap : IsGap (first :: rest) gap)
    (isStart : IsStart first rest) (offset : Nat) : Precedes offset [] gap first where
  alone := .ending isGap.before_end rfl
  followed more token stream cuts starts := by
    obtain ⟨_, tail, last, kind, whole, begins, found, rfl, later⟩ :=
      cuts.token_without_gap starts
    obtain ⟨rfl, rfl⟩ := List.cons.inj whole
    exact .token (isGap.of_isStart isStart) begins found rfl rfl later

theorem cons {offset start stop : Nat} {gap tail read rest : List Char} {head first : Char}
    {kind : Kind} {tokens : List Token} (precedes : Precedes stop tokens read first)
    (isGap : IsGap (head :: (tail ++ (read ++ first :: rest))) gap)
    (isStart : IsStart head (tail ++ (read ++ first :: rest)))
    (found : Lexeme.read head (tail ++ (read ++ first :: rest)) =
      .token kind tail (read ++ first :: rest))
    (start_eq : start = offset + byteWidth gap)
    (stop_eq : stop = start + byteWidth (head :: tail)) :
    offset + byteWidth (gap ++ head :: (tail ++ read)) = stop + byteWidth read ∧
      Precedes offset (⟨kind, String.ofList (head :: tail), ⟨start, stop⟩⟩ :: tokens)
        (gap ++ head :: (tail ++ read)) first := by
  have width : offset + byteWidth (gap ++ head :: (tail ++ read)) = stop + byteWidth read := by
    rw [← List.cons_append, byteWidth_append, byteWidth_append, stop_eq, start_eq]
    omega
  -- whatever stands where the rest did and starts as it does, the token is read before it
  have moved {other : List Char} {stream : Stream} (replaces : Replaces other (read ++ first :: rest))
      (cuts : Cuts stop other stream) :
      Cuts offset (gap ++ head :: (tail ++ other))
        (.token ⟨kind, String.ofList (head :: tail), ⟨start, stop⟩⟩ stream) :=
    .token (isGap.of_isStart isStart) (isStart.replace (replaces.append_left tail))
      (Lexeme.read_of_replaces found replaces) start_eq stop_eq cuts
  refine ⟨width, ?_, fun more token stream cuts starts => ?_⟩
  · rw [width]
    exact moved .of_append precedes.alone
  · rw [width] at cuts starts
    have replaces : Replaces (first :: more) (first :: rest) := fun c isHead => .inr isHead
    rw [List.append_assoc, List.cons_append, List.append_assoc]
    exact moved (replaces.append_left read) (precedes.followed more token stream cuts starts)

end Precedes

/-- Before a token of a text stands what is cut so whatever the token's first character begins. -/
theorem Cuts.exists_precedes {offset : Nat} {text : List Char} {stream : Stream} {tokens : List Token}
    {last : Token} (cuts : Cuts offset text (after tokens (.token last stream))) :
    ∃ read first rest, text = read ++ first :: rest ∧
      last.span.start = offset + byteWidth read ∧
      Cuts (offset + byteWidth read) (first :: rest) (.token last stream) ∧
      Precedes offset tokens read first := by
  induction tokens generalizing offset text with
  | nil =>
    cases cuts with
    | @token _ start stop gap tail rest first kind _ isGap isStart found start_eq stop_eq later =>
      subst start_eq
      have bare : Cuts (offset + byteWidth gap) ([] ++ first :: (tail ++ rest)) _ :=
        .token .nil isStart found rfl stop_eq later
      exact ⟨gap, first, _, rfl, rfl, bare, .of_isGap isGap isStart offset⟩
  | cons head tokens ih =>
    cases cuts with
    | @token _ start stop gap tail text first kind _ isGap isStart found start_eq stop_eq later =>
      obtain ⟨read, next, rest, rfl, reached, behind, precedes⟩ := ih later
      obtain ⟨width, whole⟩ := precedes.cons isGap isStart found start_eq stop_eq
      exact ⟨_, next, rest, by simp, reached.trans width.symm, width ▸ behind, whole⟩

theorem Cuts.exists_precedes_last {offset stop : Nat} {text : List Char} {tokens : List Token}
    {last : Token} (cuts : Cuts offset text (after (tokens ++ [last]) (.ending stop)))
    (touches : last.span.stop = stop) :
    ∃ read first tail, text = read ++ first :: tail ∧ last.lexeme.toList = first :: tail ∧
      last.span.start = offset + byteWidth read ∧ Precedes offset tokens read first := by
  rw [after_append] at cuts
  obtain ⟨read, first, rest, rfl, reached, behind, precedes⟩ := cuts.exists_precedes
  obtain ⟨_, tail, left, kind, whole, _, _, rfl, later⟩ := behind.token_without_gap reached
  obtain ⟨rfl, rfl⟩ := List.cons.inj whole
  have ends : Cuts _ left (after [] (.ending stop)) := later
  -- nothing is left behind the token
  have nothing : left = [] := by
    by_contra nonempty
    have positive := byteWidth_pos nonempty
    have stop_eq := ends.stop_eq
    simp only at touches
    omega
  subst nothing
  rw [List.append_nil]
  exact ⟨read, first, tail, rfl, String.toList_ofList, reached, precedes⟩

end Scriptlet.Stream
