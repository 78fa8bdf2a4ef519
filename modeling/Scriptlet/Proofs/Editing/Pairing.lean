import Scriptlet.Proofs.Editing.Visits

/-! What a bracket scan puts on record: which brackets it pairs, which it leaves open and which it
finds unmatched.

A closing bracket is held against the last one that is open. If the two are of different kinds, the
scan gives both up and goes on with what was open before them.
-/

set_option autoImplicit false

namespace Scriptlet.Brackets

namespace Visit

/-- A closing bracket is held against the last one that is open by then. -/
structure Meets (opener closer : Visit) (opened closed : Bracket) : Prop where
  opens : opener.opens? = some opened
  closes : closer.closes? = some closed
  last : closer.before.opened.head? = some (opened, opener.offset)

def IsLone (closer : Visit) : Prop :=
  (∃ bracket, closer.closes? = some bracket) ∧ closer.before.opened = []

end Visit

/-- Of two pairs one ends before the other starts, or one is within the other. -/
def NestedOrApart (first second : Nat × Nat) : Prop :=
  first.2 < second.1 ∨ second.2 < first.1 ∨
    (first.1 < second.1 ∧ second.2 < first.2) ∨ (second.1 < first.1 ∧ first.2 < second.2)

/-! Why an offset is on record -/

section

variable (visits : List Visit)

/-- An opening bracket and a later closing one of the same kind that met. -/
def IsJoined (pair : Nat × Nat) : Prop :=
  pair.1 < pair.2 ∧ ∃ opener ∈ visits, ∃ closer ∈ visits,
    (∃ bracket, opener.Meets closer bracket bracket) ∧ pair = (opener.offset, closer.offset)

def IsOpened (entry : Bracket × Nat) : Prop :=
  ∃ opener ∈ visits, opener.opens? = some entry.1 ∧ opener.offset = entry.2

/-- A closing bracket that came when none was open, or one of two of different kinds that met. -/
def IsUnmatched (offset : Nat) : Prop :=
  (∃ closer ∈ visits, closer.IsLone ∧ offset = closer.offset) ∨
    ∃ opener ∈ visits, ∃ closer ∈ visits,
      (∃ opened closed, opened ≠ closed ∧ opener.Meets closer opened closed) ∧
        (offset = opener.offset ∨ offset = closer.offset)

/-- The offsets of the brackets, each of them once. -/
structure Lists (offsets : List Nat) : Prop where
  distinct : offsets.Nodup
  iff_bracket : ∀ offset, offset ∈ offsets ↔
    ∃ visit ∈ visits, visit.isBracket = true ∧ visit.offset = offset

/-- What is on record of the characters that a scan came to. -/
structure Records (brackets : Brackets) : Prop where
  lists : Lists visits brackets.offsets
  joined : ∀ pair ∈ brackets.pairs, IsJoined visits pair
  closingOrder : brackets.pairs.Pairwise fun earlier later => earlier.2 < later.2
  nested : brackets.pairs.Pairwise NestedOrApart
  opened : ∀ entry ∈ brackets.stillOpen, IsOpened visits entry
  openingOrder : brackets.stillOpen.Pairwise fun earlier later => earlier.2 < later.2
  outside : ∀ entry ∈ brackets.stillOpen, ∀ pair ∈ brackets.pairs,
    entry.2 < pair.1 ∨ pair.2 < entry.2
  unmatched : ∀ offset ∈ brackets.unmatched, IsUnmatched visits offset

end

section

variable {visits : List Visit} {brackets : Brackets} {visit : Visit}

theorem IsJoined.concat {pair : Nat × Nat} (joined : IsJoined visits pair) (visit : Visit) :
    IsJoined (visits ++ [visit]) pair := by
  obtain ⟨forward, opener, isIn, closer, isInToo, meets⟩ := joined
  exact ⟨forward, opener, List.mem_append_left _ isIn, closer, List.mem_append_left _ isInToo, meets⟩

theorem IsOpened.concat {entry : Bracket × Nat} (opened : IsOpened visits entry) (visit : Visit) :
    IsOpened (visits ++ [visit]) entry := by
  obtain ⟨opener, isIn, opens⟩ := opened
  exact ⟨opener, List.mem_append_left _ isIn, opens⟩

theorem IsUnmatched.concat {offset : Nat} (unmatched : IsUnmatched visits offset)
    (visit : Visit) : IsUnmatched (visits ++ [visit]) offset := by
  rcases unmatched with ⟨closer, isIn, lone⟩ | ⟨opener, isIn, closer, isInToo, clash⟩
  · exact .inl ⟨closer, List.mem_append_left _ isIn, lone⟩
  · exact .inr ⟨opener, List.mem_append_left _ isIn, closer, List.mem_append_left _ isInToo, clash⟩

theorem Lists.skip {offsets : List Nat} (lists : Lists visits offsets)
    (noBracket : visit.isBracket = false) : Lists (visits ++ [visit]) offsets where
  distinct := lists.distinct
  iff_bracket offset := by simp [lists.iff_bracket, noBracket, or_and_right, exists_or]

theorem Lists.add {offsets more : List Nat} (lists : Lists visits offsets)
    (isOne : visit.isBracket = true) (behind : ∀ earlier ∈ visits, earlier.offset < visit.offset)
    (same : more.Perm (offsets ++ [visit.offset])) : Lists (visits ++ [visit]) more where
  distinct := by
    rw [same.nodup_iff, List.nodup_append]
    refine ⟨lists.distinct, List.nodup_singleton _, ?_⟩
    intro offset isIn other isOther
    obtain ⟨earlier, isEarlier, _, rfl⟩ := (lists.iff_bracket offset).1 isIn
    rw [List.mem_singleton.1 isOther]
    exact Nat.ne_of_lt (behind earlier isEarlier)
  iff_bracket offset := by
    rw [same.mem_iff, List.mem_append, lists.iff_bracket, List.mem_singleton]
    simp only [List.mem_append, List.mem_singleton, or_and_right, exists_or, exists_eq_left, isOne,
      true_and]
    exact or_congr_right eq_comm

end

namespace Records

variable {visits : List Visit} {brackets : Brackets} {offset : Nat} {c : Char}

theorem lt_of_mem (records : Records visits brackets)
    (behind : ∀ earlier ∈ visits, earlier.offset < offset) :
    ∀ place ∈ brackets.offsets, place < offset := by
  intro place isIn
  obtain ⟨earlier, isEarlier, _, rfl⟩ := (records.lists.iff_bracket place).1 isIn
  exact behind earlier isEarlier

theorem skip (records : Records visits brackets) {visit : Visit}
    (noBracket : visit.isBracket = false) (mode : ScanMode) :
    Records (visits ++ [visit]) (brackets.stand mode) where
  lists := records.lists.skip noBracket
  joined pair isIn := (records.joined pair isIn).concat visit
  closingOrder := records.closingOrder
  nested := records.nested
  opened entry isIn := (records.opened entry isIn).concat visit
  openingOrder := records.openingOrder
  outside := records.outside
  unmatched place isIn := (records.unmatched place isIn).concat visit

theorem snd_mem_offsets {pair : Nat × Nat} (isIn : pair ∈ brackets.pairs) :
    pair.2 ∈ brackets.offsets :=
  List.mem_append_left _ (List.mem_flatMap.2 ⟨pair, isIn, by simp⟩)

theorem opened_mem_offsets {entry : Bracket × Nat} (isIn : entry ∈ brackets.opened) :
    entry.2 ∈ brackets.offsets :=
  List.mem_append_right _ (List.mem_append_right _ (List.mem_map_of_mem isIn))

theorem mem_stillOpen {entry : Bracket × Nat} :
    entry ∈ brackets.stillOpen ↔ entry ∈ brackets.opened := List.mem_reverse

/-- What is open below the last bracket that is. -/
structure Tops (brackets : Brackets) (last : Bracket × Nat) (rest : List (Bracket × Nat)) :
    Prop where
  last_mem : last ∈ brackets.stillOpen
  rest_mem : ∀ entry ∈ rest.reverse, entry ∈ brackets.stillOpen
  ordered : rest.reverse.Pairwise fun earlier later => earlier.2 < later.2
  below : ∀ entry ∈ rest.reverse, entry.2 < last.2

theorem tops (records : Records visits brackets) {last : Bracket × Nat}
    {rest : List (Bracket × Nat)} (top : brackets.opened = last :: rest) :
    Tops brackets last rest := by
  have whole : brackets.stillOpen = rest.reverse ++ [last] := by
    rw [stillOpen, top, List.reverse_cons]
  have ordered := records.openingOrder
  rw [whole, List.pairwise_append] at ordered
  refine ⟨?_, ?_, ordered.1, ?_⟩
  · rw [whole]
    exact List.mem_append_right _ (List.mem_singleton_self last)
  · rw [whole]
    exact fun entry isIn => List.mem_append_left _ isIn
  · exact fun entry isIn => ordered.2.2 entry isIn last (List.mem_singleton_self last)

section

variable (records : Records visits brackets)
  (behind : ∀ earlier ∈ visits, earlier.offset < offset)

include records behind

theorem opening {bracket : Bracket} (opens : (Visit.mk offset c brackets).opens? = some bracket) :
    Records (visits ++ [⟨offset, c, brackets⟩])
      { brackets with opened := (bracket, offset) :: brackets.opened } := by
  have before := records.lt_of_mem behind
  have whole : { brackets with opened := (bracket, offset) :: brackets.opened }.stillOpen =
      brackets.stillOpen ++ [(bracket, offset)] := List.reverse_cons
  refine ⟨?_, ?_, records.closingOrder, records.nested, ?_, ?_, ?_, ?_⟩
  · exact records.lists.add (Visit.isBracket_of_opens opens) behind
      (offsets_open brackets bracket offset)
  · exact fun pair isIn => (records.joined pair isIn).concat _
  · rw [whole, List.forall_mem_append, List.forall_mem_singleton]
    exact ⟨fun entry isIn => (records.opened entry isIn).concat _,
      _, List.mem_append_right _ (List.mem_singleton_self _), opens, rfl⟩
  · rw [whole, List.pairwise_append]
    refine ⟨records.openingOrder, List.pairwise_singleton _ _, ?_⟩
    intro entry isIn last isLast
    rw [List.mem_singleton.1 isLast]
    exact before _ (opened_mem_offsets (mem_stillOpen.1 isIn))
  · rw [whole, List.forall_mem_append, List.forall_mem_singleton]
    exact ⟨records.outside, fun pair isIn => .inr (before _ (snd_mem_offsets isIn))⟩
  · exact fun place isIn => (records.unmatched place isIn).concat _

theorem closingAlone {bracket : Bracket} (closes : (Visit.mk offset c brackets).closes? = some bracket)
    (none : brackets.opened = []) :
    Records (visits ++ [⟨offset, c, brackets⟩]) (brackets.close bracket offset) := by
  have lists := records.lists.add (Visit.isBracket_of_closes closes) behind
    (offsets_close brackets bracket offset)
  simp only [close, none] at lists ⊢
  refine ⟨lists, ?_, records.closingOrder, records.nested, ?_, ?_, ?_, ?_⟩
  · exact fun pair isIn => (records.joined pair isIn).concat _
  · exact List.forall_mem_nil _
  · exact .nil
  · exact List.forall_mem_nil _
  · rw [List.forall_mem_append, List.forall_mem_singleton]
    exact ⟨fun place isIn => (records.unmatched place isIn).concat _,
      .inl ⟨_, List.mem_append_right _ (List.mem_singleton_self _), ⟨⟨_, closes⟩, none⟩, rfl⟩⟩

theorem exists_meets {opened bracket : Bracket} {place : Nat} {rest : List (Bracket × Nat)}
    (closes : (Visit.mk offset c brackets).closes? = some bracket)
    (top : brackets.opened = (opened, place) :: rest) :
    place < offset ∧ ∃ opener ∈ visits, opener.offset = place ∧
      opener.Meets ⟨offset, c, brackets⟩ opened bracket := by
  obtain ⟨opener, isIn, opens, rfl⟩ := records.opened _ (records.tops top).last_mem
  refine ⟨behind opener isIn, opener, isIn, rfl, opens, closes, ?_⟩
  rw [top]
  rfl

theorem closingSame {bracket : Bracket} {place : Nat} {rest : List (Bracket × Nat)}
    (closes : (Visit.mk offset c brackets).closes? = some bracket)
    (top : brackets.opened = (bracket, place) :: rest) :
    Records (visits ++ [⟨offset, c, brackets⟩]) (brackets.close bracket offset) := by
  have before := records.lt_of_mem behind
  have tops := records.tops top
  obtain ⟨forward, opener, isOpener, rfl, meets⟩ := records.exists_meets behind closes top
  have lists := records.lists.add (Visit.isBracket_of_closes closes) behind
    (offsets_close brackets bracket offset)
  simp only [close, top, if_pos] at lists ⊢
  refine ⟨lists, ?_, ?_, ?_, ?_, tops.ordered, ?_, ?_⟩
  · rw [List.forall_mem_append, List.forall_mem_singleton]
    exact ⟨fun pair isIn => (records.joined pair isIn).concat _,
      forward, opener, List.mem_append_left _ isOpener,
      _, List.mem_append_right _ (List.mem_singleton_self _), ⟨bracket, meets⟩, rfl⟩
  · rw [List.pairwise_append]
    refine ⟨records.closingOrder, List.pairwise_singleton _ _, ?_⟩
    intro pair isIn last isLast
    rw [List.mem_singleton.1 isLast]
    exact before _ (snd_mem_offsets isIn)
  · rw [List.pairwise_append]
    refine ⟨records.nested, List.pairwise_singleton _ _, ?_⟩
    intro pair isIn last isLast
    rw [List.mem_singleton.1 isLast]
    -- the bracket was open outside of the earlier pair
    rcases records.outside _ tops.last_mem pair isIn with around | apart
    · exact .inr (.inr (.inr ⟨around, before _ (snd_mem_offsets isIn)⟩))
    · exact .inl apart
  · exact fun entry isIn => (records.opened entry (tops.rest_mem entry isIn)).concat _
  · intro entry isIn
    rw [List.forall_mem_append, List.forall_mem_singleton]
    exact ⟨records.outside entry (tops.rest_mem entry isIn), .inl (tops.below entry isIn)⟩
  · exact fun place isIn => (records.unmatched place isIn).concat _

theorem closingOther {opened bracket : Bracket} {place : Nat} {rest : List (Bracket × Nat)}
    (closes : (Visit.mk offset c brackets).closes? = some bracket)
    (top : brackets.opened = (opened, place) :: rest) (differ : opened ≠ bracket) :
    Records (visits ++ [⟨offset, c, brackets⟩]) (brackets.close bracket offset) := by
  have tops := records.tops top
  obtain ⟨_, opener, isOpener, rfl, meets⟩ := records.exists_meets behind closes top
  have lists := records.lists.add (Visit.isBracket_of_closes closes) behind
    (offsets_close brackets bracket offset)
  simp only [close, top, if_neg differ] at lists ⊢
  refine ⟨lists, ?_, records.closingOrder, records.nested, ?_, tops.ordered, ?_, ?_⟩
  · exact fun pair isIn => (records.joined pair isIn).concat _
  · exact fun entry isIn => (records.opened entry (tops.rest_mem entry isIn)).concat _
  · exact fun entry isIn => records.outside entry (tops.rest_mem entry isIn)
  · have clash (place : Nat) (isOne : place = opener.offset ∨ place = offset) :
        IsUnmatched (visits ++ [⟨offset, c, brackets⟩]) place :=
      .inr ⟨opener, List.mem_append_left _ isOpener,
        _, List.mem_append_right _ (List.mem_singleton_self _), ⟨opened, bracket, differ, meets⟩,
        isOne⟩
    rw [List.forall_mem_append, List.forall_mem_cons, List.forall_mem_singleton]
    exact ⟨fun place isIn => (records.unmatched place isIn).concat _,
      clash _ (.inl rfl), clash _ (.inr rfl)⟩

theorem closing {bracket : Bracket} (closes : (Visit.mk offset c brackets).closes? = some bracket) :
    Records (visits ++ [⟨offset, c, brackets⟩]) (brackets.close bracket offset) := by
  cases top : brackets.opened with
  | nil => exact records.closingAlone behind closes top
  | cons last rest =>
    obtain ⟨opened, place⟩ := last
    by_cases same : opened = bracket
    · subst same
      exact records.closingSame behind closes top
    · exact records.closingOther behind closes top same

theorem step (next : Option Char) :
    Records (visits ++ [⟨offset, c, brackets⟩]) (brackets.step offset c next) := by
  rcases step_cases brackets offset c next with ⟨bracket, opens, stepped⟩ |
    ⟨bracket, closes, stepped⟩ | ⟨noBracket, mode, stepped⟩
  · rw [stepped]
    exact records.opening behind opens
  · rw [stepped]
    exact records.closing behind closes
  · rw [stepped]
    exact records.skip noBracket mode

end

theorem blank : Records [] empty where
  lists := ⟨List.nodup_nil, by simp [offsets, empty]⟩
  joined := List.forall_mem_nil _
  closingOrder := .nil
  nested := .nil
  opened := List.forall_mem_nil _
  openingOrder := .nil
  outside := List.forall_mem_nil _
  unmatched := List.forall_mem_nil _

theorem scanFrom (records : Records visits brackets)
    (behind : ∀ earlier ∈ visits, earlier.offset < offset) (text : List Char) :
    Records (visits ++ visitsFrom offset brackets text) (brackets.scanFrom offset text) := by
  induction text generalizing visits offset brackets with
  | nil =>
    rw [visitsFrom, List.append_nil]
    exact records
  | cons c rest ih =>
    have ahead : ∀ earlier ∈ visits ++ [⟨offset, c, brackets⟩],
        earlier.offset < offset + c.utf8Size := by
      have wide := c.utf8Size_pos
      rw [List.forall_mem_append, List.forall_mem_singleton]
      exact ⟨fun earlier isIn => Nat.lt_add_right _ (behind earlier isIn), by simpa using wide⟩
    have later := ih (records.step behind rest.head?) ahead
    rwa [List.append_assoc, List.singleton_append] at later

end Records

/-- A scan puts each bracket of a text on record once, and nothing else. Its pairs are of one kind
each, and they are nested or apart; what is open is outside of them; what is unmatched came alone or
met another kind. -/
theorem scan_records (text : List Char) : Records (visits text) (scan text) :=
  Records.blank.scanFrom (List.forall_mem_nil _) text

end Scriptlet.Brackets
