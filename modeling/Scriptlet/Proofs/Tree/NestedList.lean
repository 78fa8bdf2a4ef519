import Scriptlet.Proofs.Text.Visible

/-! Nested lists as texts: words and quoted texts, and lists in parentheses with spaces between
their items. A text is that of one nested list.
-/

set_option autoImplicit false

namespace Scriptlet

inductive NestedList where
  | atom (text : List Char)
  | list (items : List NestedList)

namespace NestedList

mutual

def text : NestedList → List Char
  | atom text => text
  | list items => '(' :: (textOfItems items ++ [')'])

def textOfItems : List NestedList → List Char
  | [] => []
  | first :: rest => text first ++ textOfRest rest

def textOfRest : List NestedList → List Char
  | [] => []
  | first :: rest => ' ' :: (text first ++ textOfRest rest)

end

def word (text : String) : NestedList := .atom text.toList

@[simp] theorem text_word (text : String) : (word text).text = text.toList := rfl

@[simp] theorem textOfRest_nil : textOfRest [] = [] := rfl

@[simp] theorem textOfRest_cons (first : NestedList) (rest : List NestedList) :
    textOfRest (first :: rest) = ' ' :: (first.text ++ textOfRest rest) := rfl

@[simp] theorem text_headed (head : String) (rest : List NestedList) :
    (list (word head :: rest)).text = '(' :: (head.toList ++ (textOfRest rest ++ [')'])) := by
  rw [text, textOfItems, text_word, List.append_assoc]

def isPlain (c : Char) : Bool := c ≠ ' ' && c ≠ '(' && c ≠ ')' && c ≠ '"'

/-- What can be an atom: a word, or a text between quotes. -/
inductive IsAtom : List Char → Prop where
  | word {first : Char} {rest : List Char} :
    (∀ c ∈ first :: rest, isPlain c = true) → IsAtom (first :: rest)
  | quoted {text : List Char} : IsAtom (Printable.quote text)

inductive Readable : NestedList → Prop where
  | atom {text : List Char} : IsAtom text → Readable (.atom text)
  | list {items : List NestedList} : (∀ item ∈ items, Readable item) → Readable (.list items)

/-- What stands after an item: nothing, a space, or the end of the list around it. -/
def IsBreak (rest : List Char) : Prop := ∀ c ∈ rest.head?, c = ' ' ∨ c = ')'

theorem IsBreak.stops {rest : List Char} (isBreak : IsBreak rest) :
    ∀ c ∈ rest.head?, isPlain c = false := by
  intro c isHead
  rcases isBreak c isHead with rfl | rfl <;> rfl

/-! Atoms -/

namespace IsAtom

theorem starts {atom : List Char} (isAtom : IsAtom atom) :
    ∃ first rest, atom = first :: rest ∧ first ≠ ' ' ∧ first ≠ '(' ∧ first ≠ ')' := by
  cases isAtom with
  | @word first rest plain =>
    have own := plain first List.mem_cons_self
    simp only [isPlain, Bool.and_eq_true, decide_eq_true_eq] at own
    exact ⟨first, rest, rfl, own.1.1.1, own.1.1.2, own.1.2⟩
  | quoted => exact ⟨'"', _, rfl, by decide, by decide, by decide⟩

theorem inj {atom other rest more : List Char} (isAtom : IsAtom atom) (isOther : IsAtom other)
    (ends : IsBreak rest) (endsOther : IsBreak more) (same : atom ++ rest = other ++ more) :
    atom = other ∧ rest = more := by
  -- a word does not start with a quote
  have noQuote {first : Char} {word text rest more : List Char}
      (plain : ∀ c ∈ first :: word, isPlain c = true) :
      first :: word ++ rest ≠ Printable.quote text ++ more := by
    intro same
    have own := plain first List.mem_cons_self
    rw [(List.cons.inj same).1] at own
    cases own
  cases isAtom with
  | word plain =>
    cases isOther with
    | word plainOther =>
      obtain ⟨taken, dropped⟩ := takeWhile_append_of_stops plain ends.stops
      obtain ⟨takenOther, droppedOther⟩ := takeWhile_append_of_stops plainOther endsOther.stops
      rw [same, takenOther] at taken
      rw [same, droppedOther] at dropped
      exact ⟨taken.symm, dropped.symm⟩
    | quoted => exact absurd same (noQuote plain)
  | quoted =>
    cases isOther with
    | word plainOther => exact absurd same.symm (noQuote plainOther)
    | quoted =>
      obtain ⟨rfl, rests⟩ := Printable.quote_inj same
      exact ⟨rfl, rests⟩

end IsAtom

/-! Lists -/

theorem Readable.starts {item : NestedList} (readable : Readable item) :
    ∃ first rest, item.text = first :: rest ∧ first ≠ ' ' ∧ first ≠ ')' := by
  cases readable with
  | atom isAtom =>
    obtain ⟨first, rest, same, space, _, closing⟩ := isAtom.starts
    exact ⟨first, rest, by rw [text, same], space, closing⟩
  | list =>
    rw [text]
    exact ⟨'(', _, rfl, by decide, by decide⟩

/-- An item whose text is told from that of others, whatever follows. -/
def Tells (item : NestedList) : Prop :=
  ∀ (other : NestedList) (rest more : List Char), Readable other → IsBreak rest → IsBreak more →
    item.text ++ rest = other.text ++ more → item = other ∧ rest = more

theorem isBreak_rest (items : List NestedList) (after : List Char) :
    IsBreak (textOfRest items ++ ')' :: after) := by
  cases items with
  | nil => simp [IsBreak, textOfRest]
  | cons => simp [IsBreak, textOfRest]

theorem rest_inj {items others : List NestedList} {after more : List Char}
    (tells : ∀ item ∈ items, item.Tells) (readable : ∀ item ∈ others, Readable item)
    (same : textOfRest items ++ ')' :: after = textOfRest others ++ ')' :: more) :
    items = others ∧ after = more := by
  induction items generalizing others with
  | nil =>
    cases others with
    | nil => exact ⟨rfl, (List.cons.inj same).2⟩
    | cons other others =>
      cases (List.cons.inj same).1
  | cons item items ih =>
    cases others with
    | nil =>
      cases (List.cons.inj same).1
    | cons other others =>
      rw [List.forall_mem_cons] at tells readable
      rw [textOfRest, textOfRest, List.cons_append, List.cons_append, List.append_assoc,
        List.append_assoc] at same
      obtain ⟨rfl, rests⟩ := tells.1 other _ _ readable.1 (isBreak_rest _ _) (isBreak_rest _ _)
        (List.cons.inj same).2
      obtain ⟨rfl, afters⟩ := ih tells.2 readable.2 rests
      exact ⟨rfl, afters⟩

theorem items_inj {items others : List NestedList} {after more : List Char}
    (tells : ∀ item ∈ items, item.Tells) (readableItems : ∀ item ∈ items, Readable item)
    (readable : ∀ item ∈ others, Readable item)
    (same : textOfItems items ++ ')' :: after = textOfItems others ++ ')' :: more) :
    items = others ∧ after = more := by
  cases items with
  | nil =>
    cases others with
    | nil => exact ⟨rfl, (List.cons.inj same).2⟩
    | cons other others =>
      obtain ⟨first, rest, starts, _, closing⟩ := (readable other List.mem_cons_self).starts
      rw [textOfItems, textOfItems, starts] at same
      exact absurd (List.cons.inj same).1.symm closing
  | cons item items =>
    cases others with
    | nil =>
      obtain ⟨first, rest, starts, _, closing⟩ := (readableItems item List.mem_cons_self).starts
      rw [textOfItems, textOfItems, starts] at same
      exact absurd (List.cons.inj same).1 closing
    | cons other others =>
      -- with a space in front both are rows of items after spaces
      exact rest_inj tells readable (congrArg (' ' :: ·) same)

theorem Readable.tells {item : NestedList} (readable : Readable item) : item.Tells := by
  induction readable with
  | atom isAtom =>
    intro other rest more readableOther ends endsOther same
    cases readableOther with
    | atom isOther =>
      obtain ⟨rfl, rests⟩ := isAtom.inj isOther ends endsOther same
      exact ⟨rfl, rests⟩
    | list =>
      obtain ⟨first, tail, starts, _, opening, _⟩ := isAtom.starts
      rw [text, text, starts] at same
      exact absurd (List.cons.inj same).1 opening
  | list readableItems ih =>
    intro other rest more readableOther ends endsOther same
    cases readableOther with
    | atom isOther =>
      obtain ⟨first, tail, starts, _, opening, _⟩ := isOther.starts
      rw [text, text, starts] at same
      exact absurd (List.cons.inj same).1.symm opening
    | list readableOthers =>
      rw [text, text, List.cons_append, List.cons_append, List.append_assoc, List.append_assoc]
        at same
      obtain ⟨rfl, rests⟩ := items_inj ih readableItems readableOthers (List.cons.inj same).2
      exact ⟨rfl, rests⟩

/-- A text is that of one nested list. -/
theorem eq_of_text {item other : NestedList} (readable : Readable item)
    (readableOther : Readable other) (same : item.text = other.text) : item = other := by
  have nothing : IsBreak [] := by simp [IsBreak]
  exact (readable.tells other [] [] readableOther nothing nothing (congrArg (· ++ []) same)).1

end NestedList

end Scriptlet
