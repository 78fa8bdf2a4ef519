import Mathlib.Data.Prod.Lex
import Scriptlet.Proofs.Text.Places

/-! Lines and columns of places in a text: in the order of the places, and never the same for two of
them. All other offsets are told as the end of the text.
-/

set_option autoImplicit false

namespace Scriptlet

/-! What is in front of a place -/

theorem takeBytes?_eq_some_iff {count : Nat} {text before : List Char} :
    takeBytes? count text = some before ↔
      byteWidth before = count ∧ ∃ after, before ++ after = text := by
  constructor
  · intro taken
    fun_induction takeBytes? count text generalizing before with
    | case1 text =>
      cases taken
      exact ⟨rfl, text, rfl⟩
    | case2 => cases taken
    | case3 count c rest fits ih =>
      obtain ⟨more, takenMore, rfl⟩ := Option.map_eq_some_iff.1 taken
      obtain ⟨width, after, rfl⟩ := ih takenMore
      exact ⟨by rw [byteWidth, width]; omega, after, rfl⟩
    | case4 => cases taken
  · rintro ⟨rfl, after, rfl⟩
    exact takeBytes?_append before after

theorem isPlace_iff {text : List Char} {offset : Nat} :
    IsPlace text offset ↔ ∃ before, takeBytes? offset text = some before := by
  constructor
  · rintro ⟨before, after, whole, width⟩
    exact ⟨before, takeBytes?_eq_some_iff.2 ⟨width, after, whole⟩⟩
  · rintro ⟨before, taken⟩
    obtain ⟨width, after, whole⟩ := takeBytes?_eq_some_iff.1 taken
    exact ⟨before, after, whole, width⟩

theorem exists_between {text : List Char} {low high : Nat} (place : IsPlace text low)
    (other : IsPlace text high) (less : low < high) :
    ∃ before part, part ≠ [] ∧ takeBytes? low text = some before ∧
      takeBytes? high text = some (before ++ part) := by
  obtain ⟨before, after, rfl, rfl⟩ := place
  obtain ⟨longer, rest, same, rfl⟩ := other
  rcases List.append_eq_append_iff.1 same with ⟨part, rfl, _⟩ | ⟨part, rfl, _⟩
  · rw [byteWidth_append] at less
    omega
  · refine ⟨before, part, ?_, takeBytes?_append before after, ?_⟩
    · rintro rfl
      rw [List.append_nil] at less
      exact Nat.lt_irrefl _ less
    · rw [← same]
      exact takeBytes?_append _ rest

/-! Last lines -/

theorem lastLine_append {part : List Char} (noFeed : '\n' ∉ part) (before : List Char) :
    lastLine (before ++ part) = lastLine before ++ part := by
  have goesOn : ∀ c ∈ part.reverse, decide (c ≠ '\n') = true := by
    intro c member
    exact decide_eq_true fun same => noFeed (same ▸ List.mem_reverse.1 member)
  rw [lastLine, List.reverse_append, List.takeWhile_append_of_pos goesOn, List.reverse_append,
    List.reverse_reverse, lastLine]

theorem lastLine_of_not_mem {text : List Char} (noFeed : '\n' ∉ text) : lastLine text = text :=
  lastLine_append noFeed []

theorem lastLine_feed {line : List Char} (noFeed : '\n' ∉ line) (before : List Char) :
    lastLine (before ++ '\n' :: line) = line := by
  have feed : lastLine (before ++ ['\n']) = [] := by simp [lastLine]
  rw [List.append_cons, lastLine_append noFeed, feed, List.nil_append]

def lastFeed? : List Char → Option Nat
  | [] => none
  | c :: rest =>
    match lastFeed? rest with
    | some offset => some (c.utf8Size + offset)
    | none => if c = '\n' then some 0 else none

theorem lastFeed?_eq_none {text : List Char} (none : lastFeed? text = none) : '\n' ∉ text := by
  fun_induction lastFeed? text with
  | case1 => exact List.not_mem_nil
  | case2 => cases none
  | case3 => cases none
  | case4 c rest noLater noFeed ih =>
    exact List.not_mem_cons_of_ne_of_not_mem (fun same => noFeed same.symm) (ih noLater)

theorem exists_of_lastFeed? {text : List Char} {offset : Nat}
    (found : lastFeed? text = some offset) :
    ∃ before line, text = before ++ '\n' :: line ∧ byteWidth before = offset ∧ '\n' ∉ line := by
  fun_induction lastFeed? text generalizing offset with
  | case1 => cases found
  | case2 c rest later known ih =>
    cases found
    obtain ⟨before, line, rfl, rfl, noFeed⟩ := ih known
    exact ⟨c :: before, line, rfl, rfl, noFeed⟩
  | case3 rest noLater ih =>
    cases found
    exact ⟨[], rest, rfl, rfl, lastFeed?_eq_none noLater⟩
  | case4 => cases found

namespace Span

/-! Lines and columns -/

/-- Line and column as they are measured on a text: what is behind the last line feed is cut off at
its offset, which fails inside a character. -/
def measured? (span : Span) (source : List Char) : Option (Nat × Nat) :=
  let before := (takeBytes? (min span.start (byteWidth source)) source).getD source
  let line := before.count '\n' + 1
  match lastFeed? before with
  | some offset => (dropBytes? (offset + 1) before).map fun rest => (line, rest.length + 1)
  | none => some (line, before.length + 1)

/-- The line that is counted starts between two characters. -/
theorem measured?_eq (span : Span) (source : List Char) :
    span.measured? source = some (span.lineColumn source) := by
  unfold measured? lineColumn
  dsimp only
  generalize (takeBytes? (min span.start (byteWidth source)) source).getD source = before
  cases found : lastFeed? before with
  | none => rw [lastLine_of_not_mem (lastFeed?_eq_none found)]
  | some offset =>
    obtain ⟨front, line, rfl, rfl, noFeed⟩ := exists_of_lastFeed? found
    have width : byteWidth front + 1 = byteWidth (front ++ ['\n']) := by
      rw [byteWidth_append]
      rfl
    dsimp only
    rw [width, List.append_cons, dropBytes?_append, ← List.append_cons, lastLine_feed noFeed]
    rfl

theorem lineColumn_of_takeBytes? {span : Span} {source before : List Char}
    (taken : takeBytes? span.start source = some before) :
    span.lineColumn source = (before.count '\n' + 1, (lastLine before).length + 1) := by
  have place : IsPlace source span.start := isPlace_iff.2 ⟨before, taken⟩
  rw [lineColumn, min_eq_left place.le, taken]
  rfl

theorem lineColumn_end (source : List Char) :
    (point (byteWidth source)).lineColumn source =
      (source.count '\n' + 1, (lastLine source).length + 1) :=
  lineColumn_of_takeBytes? (takeBytes?_eq_some_iff.2 ⟨rfl, [], List.append_nil source⟩)

theorem lineColumn_of_not_isPlace {span : Span} {source : List Char}
    (noPlace : ¬ IsPlace source span.start) :
    span.lineColumn source = (point (byteWidth source)).lineColumn source := by
  rw [lineColumn_end, lineColumn]
  rcases Nat.le_total span.start (byteWidth source) with inside | past
  · have none : takeBytes? span.start source = none := by
      cases taken : takeBytes? span.start source with
      | none => rfl
      | some before => exact absurd (isPlace_iff.2 ⟨before, taken⟩) noPlace
    rw [min_eq_left inside, none]
    rfl
  · have whole := takeBytes?_append source []
    rw [List.append_nil] at whole
    rw [min_eq_right past, whole]
    rfl

/-- More text in front of a place is a later line, or a later column of the same one. -/
theorem lineColumn_lt {a b : Span} {source : List Char} (place : IsPlace source a.start)
    (other : IsPlace source b.start) (less : a.start < b.start) :
    Prod.Lex (· < ·) (· < ·) (a.lineColumn source) (b.lineColumn source) := by
  obtain ⟨before, part, nonempty, low, high⟩ := exists_between place other less
  rw [lineColumn_of_takeBytes? low, lineColumn_of_takeBytes? high, List.count_append]
  by_cases feed : '\n' ∈ part
  · have positive := List.count_pos_iff.2 feed
    exact .left _ _ (by omega)
  · have length := List.length_pos_iff.2 nonempty
    rw [List.count_eq_zero_of_not_mem feed, lastLine_append feed, List.length_append]
    exact .right _ (by omega)

/-- Lines and columns of places, counted from one, are in the order of the places and so tell them
apart. A span that starts elsewhere is told as the end of the source. Measuring them never fails. -/
theorem lineColumn_is_faithful (source : List Char) :
    (∀ a b : Span, IsPlace source a.start → IsPlace source b.start →
      (a.start < b.start → Prod.Lex (· < ·) (· < ·) (a.lineColumn source) (b.lineColumn source)) ∧
      (a.lineColumn source = b.lineColumn source → a.start = b.start)) ∧
    (∀ span : Span, 1 ≤ (span.lineColumn source).1 ∧ 1 ≤ (span.lineColumn source).2) ∧
    (∀ span : Span, ¬ IsPlace source span.start →
      span.lineColumn source = (point (byteWidth source)).lineColumn source) ∧
    ∀ span : Span, span.measured? source = some (span.lineColumn source) := by
  refine ⟨fun a b place other => ⟨lineColumn_lt place other, fun same => ?_⟩, fun span => ?_,
    fun _ => lineColumn_of_not_isPlace, fun span => span.measured?_eq source⟩
  · -- of two different places one is the later one
    have irreflexive (place : Nat × Nat) : ¬ Prod.Lex (· < ·) (· < ·) place place := by
      simp [Prod.lex_def]
    rcases Nat.lt_trichotomy a.start b.start with less | equal | more
    · have order := lineColumn_lt place other less
      rw [same] at order
      exact absurd order (irreflexive _)
    · exact equal
    · have order := lineColumn_lt other place more
      rw [same] at order
      exact absurd order (irreflexive _)
  · exact ⟨Nat.le_add_left 1 _, Nat.le_add_left 1 _⟩

example :
    (point 5).lineColumn "é\nab".toList = (2, 3) ∧
      (point 1).lineColumn "é\nab".toList = (2, 3) := by
  decide

end Span

end Scriptlet
