import Scriptlet.Text.Span

/-! Offsets that stand between two characters, and the text at a span of two such offsets. -/

set_option autoImplicit false

namespace Scriptlet

/-- An offset between two characters of a text or at one of its ends. -/
def IsPlace (text : List Char) (offset : Nat) : Prop :=
  ∃ before after, before ++ after = text ∧ byteWidth before = offset

theorem isPlace_append (before after : List Char) :
    IsPlace (before ++ after) (byteWidth before) := ⟨before, after, rfl, rfl⟩

theorem isPlace_zero (text : List Char) : IsPlace text 0 := ⟨[], text, rfl, rfl⟩

theorem isPlace_byteWidth (text : List Char) : IsPlace text (byteWidth text) :=
  ⟨text, [], List.append_nil text, rfl⟩

theorem IsPlace.le {text : List Char} {offset : Nat} (place : IsPlace text offset) :
    offset ≤ byteWidth text := by
  obtain ⟨before, after, rfl, rfl⟩ := place
  rw [byteWidth_append]
  exact Nat.le_add_right _ _

theorem byteWidth_pos {text : List Char} (nonempty : text ≠ []) : 0 < byteWidth text := by
  obtain ⟨c, rest, rfl⟩ := List.exists_cons_of_ne_nil nonempty
  have size := c.utf8Size_pos
  rw [byteWidth]
  omega

theorem dropBytes?_cons (c : Char) (rest : List Char) (count : Nat) :
    dropBytes? (c.utf8Size + count) (c :: rest) = dropBytes? count rest := by
  have size := c.utf8Size_pos
  cases total : c.utf8Size + count with
  | zero => omega
  | succ less =>
    rw [dropBytes?, if_pos (by omega), show less + 1 - c.utf8Size = count by omega]

theorem takeBytes?_cons (c : Char) (rest : List Char) (count : Nat) :
    takeBytes? (c.utf8Size + count) (c :: rest) = (takeBytes? count rest).map (c :: ·) := by
  have size := c.utf8Size_pos
  cases total : c.utf8Size + count with
  | zero => omega
  | succ less =>
    rw [takeBytes?, if_pos (by omega), show less + 1 - c.utf8Size = count by omega]

theorem dropBytes?_append (before after : List Char) :
    dropBytes? (byteWidth before) (before ++ after) = some after := by
  induction before with
  | nil => simp [byteWidth, dropBytes?]
  | cons c rest ih => rw [byteWidth, List.cons_append, dropBytes?_cons, ih]

theorem takeBytes?_append (before after : List Char) :
    takeBytes? (byteWidth before) (before ++ after) = some before := by
  induction before with
  | nil => simp [byteWidth, takeBytes?]
  | cons c rest ih =>
    rw [byteWidth, List.cons_append, takeBytes?_cons, ih]
    rfl

namespace Span

theorem slice?_append (before part after : List Char) :
    slice? ⟨byteWidth before, byteWidth (before ++ part)⟩ (before ++ (part ++ after)) =
      some part := by
  have width : byteWidth (before ++ part) = byteWidth before + byteWidth part :=
    byteWidth_append before part
  rw [slice?, if_pos (by simp only; omega), dropBytes?_append, Option.bind_some,
    show byteWidth (before ++ part) - byteWidth before = byteWidth part by omega,
    takeBytes?_append]

/-- A span from one place of a text to the same or a later one. -/
structure IsWithin (text : List Char) (span : Span) : Prop where
  ordered : span.start ≤ span.stop
  start : IsPlace text span.start
  stop : IsPlace text span.stop

namespace IsWithin

variable {text : List Char} {span : Span}

theorem of_append (before part after : List Char) :
    IsWithin (before ++ (part ++ after)) ⟨byteWidth before, byteWidth (before ++ part)⟩ where
  ordered := by
    rw [byteWidth_append]
    exact Nat.le_add_right _ _
  start := isPlace_append before (part ++ after)
  stop := ⟨before ++ part, after, List.append_assoc before part after, rfl⟩

theorem of_point {offset : Nat} (place : IsPlace text offset) : (point offset).IsWithin text :=
  ⟨Nat.le_refl offset, place, place⟩

theorem slice?_isSome (within : span.IsWithin text) : (span.slice? text).isSome = true := by
  obtain ⟨before, after, whole, width⟩ := within.start
  obtain ⟨longer, rest, same, sum⟩ := within.stop
  have ordered := within.ordered
  have span_eq : span = ⟨byteWidth before, byteWidth longer⟩ := by rw [width, sum]
  rcases List.append_eq_append_iff.1 (whole.trans same.symm) with
    ⟨part, rfl, rfl⟩ | ⟨part, rfl, rfl⟩
  · rw [← whole, span_eq, slice?_append]
    rfl
  · -- The later offset is that of a shorter text, so the text between them is empty.
    cases part with
    | nil =>
      have empty := slice?_append longer [] after
      rw [List.append_nil] at width span_eq empty
      rw [same, ← span_eq] at empty
      rw [empty]
      rfl
    | cons c more =>
      have positive := byteWidth_pos (List.cons_ne_nil c more)
      rw [byteWidth_append] at width
      omega

end IsWithin

end Span

end Scriptlet
