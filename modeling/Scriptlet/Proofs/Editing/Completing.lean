import Scriptlet.Editing.Completion
import Scriptlet.Proofs.Scope.Visibility
import Scriptlet.Proofs.Text.NameOrder
import Scriptlet.Proofs.Token.Munch
import Scriptlet.Proofs.Token.Respelling
import Scriptlet.Proofs.Token.Spelling

/-! What completion offers for the word at the cursor, and what a text becomes with an offer put in its
place.
-/

set_option autoImplicit false

namespace Scriptlet

theorem Stream.Whole.of_after {tokens : List Token} {stream : Stream}
    (whole : (Stream.after tokens stream).Whole) : ∀ token ∈ tokens, token.kind ≠ .endOfInput := by
  induction tokens with
  | nil => exact List.forall_mem_nil _
  | cons head tokens ih => exact List.forall_mem_cons.2 ⟨whole.1, ih whole.2⟩

namespace Completion

/-- A text that can be cut into tokens, of which the last is a word that ends where the text does. -/
structure EndsIn (before : List Char) (tokens : List Token) (word : Token) : Prop where
  cut : tokenize before = .ok (tokens ++ [word, Token.ending (byteWidth before)])
  isWord : word.kind.isWord = true
  touches : word.span.stop = byteWidth before

/-- A name that is found from a scope, or a reserved word. -/
def IsAvailable (store : Store) (scope : ScopeId) (name : String) : Prop :=
  (∃ owner, store.owner? scope name = some owner) ∨ ∃ reserved : Keyword, reserved.spelling = name

def wordAt (start : Nat) (name : String) : Token :=
  ⟨Lexeme.wordKind name, name, ⟨start, start + byteWidth name.toList⟩⟩

variable {before : List Char} {tokens : List Token} {word : Token}

/-! The last token -/

theorem scan_of_tokenize (cut : tokenize before = .ok tokens) :
    ∃ earlier, tokens = earlier ++ [Token.ending (byteWidth before)] ∧
      Stream.scan 0 before = Stream.after earlier (.ending (byteWidth before)) := by
  obtain ⟨earlier, stop, scanned, rfl⟩ := exists_after_of_tokenize cut
  have cuts := scanned ▸ Stream.cuts_scan 0 before
  obtain rfl : stop = byteWidth before := cuts.stop_eq.trans (Nat.zero_add _)
  exact ⟨earlier, rfl, scanned⟩

theorem lastToken?_eq_some_iff :
    lastToken? before = some word ↔
      ∃ tokens, tokenize before = .ok (tokens ++ [word, Token.ending (byteWidth before)]) := by
  rw [lastToken?]
  split
  · next all cut =>
    obtain ⟨earlier, rfl, scanned⟩ := scan_of_tokenize cut
    have whole := (scanned ▸ Stream.cuts_scan 0 before).whole
    have others : ∀ token ∈ earlier.reverse, (token.kind != .endOfInput) = true := fun token member =>
      bne_iff_ne.2 (whole.of_after token (List.mem_reverse.1 member))
    have last : (earlier ++ [Token.ending (byteWidth before)]).reverse.find?
        (fun token => token.kind != .endOfInput) = earlier.getLast? := by
      rw [List.reverse_concat, List.find?_cons_of_neg Bool.false_ne_true, ← List.head?_filter,
        List.filter_eq_self.2 others, List.head?_reverse]
    rw [last, List.getLast?_eq_some_iff, cut]
    refine exists_congr fun tokens => ?_
    rw [Except.ok.injEq, List.append_cons tokens word [_], List.append_left_inj]
  · next cut => simp [cut]

theorem EndsIn.last (ends : EndsIn before tokens word) : lastToken? before = some word :=
  lastToken?_eq_some_iff.2 ⟨tokens, ends.cut⟩

theorem EndsIn.word_eq (ends : EndsIn before tokens word) {earlier : List Token} {other : Token}
    (endsToo : EndsIn before earlier other) : other = word :=
  Option.some.inj (endsToo.last.symm.trans ends.last)

/-! What is offered -/

theorem mem_candidates_iff {names : List String} {start name : String} :
    name ∈ candidates names start ↔
      (name ∈ names ∨ ∃ reserved : Keyword, reserved.spelling = name) ∧
        start.toList <+: name.toList := by
  have all (reserved : Keyword) : reserved ∈ Keyword.all := by cases reserved <;> decide
  rw [candidates, List.mem_filter, NameSet.mem_ofList, List.mem_append, List.isPrefixOf_iff_prefix]
  simp [all]

theorem isIncreasing_candidates (names : List String) (start : String) :
    NameSet.IsIncreasing (candidates names start) :=
  (NameSet.isIncreasing_ofList _).filter _

theorem candidates_congr {names others : List String} (same : ∀ name, name ∈ names ↔ name ∈ others)
    (start : String) : candidates names start = candidates others start := by
  unfold candidates
  rw [NameSet.ofList_congr fun name => ?_]
  rw [List.mem_append, List.mem_append, same]

theorem complete_congr {names others : List String} (same : ∀ name, name ∈ names ↔ name ∈ others)
    (line : List Char) (cursor : Nat) : complete names line cursor = complete others line cursor := by
  simp only [complete, candidates_congr same]

theorem complete_of_endsIn (ends : EndsIn before tokens word) (names : List String)
    (after : List Char) :
    complete names (before ++ after) (byteWidth before) =
      (word.span.start, candidates names word.lexeme) := by
  simp [complete, takeBytes?_append, ends.last, ends.isWord, ends.touches]

theorem complete_of_not_endsIn (elsewhere : ∀ tokens word, ¬ EndsIn before tokens word)
    (names : List String) (after : List Char) :
    complete names (before ++ after) (byteWidth before) = (byteWidth before, []) := by
  rw [complete, takeBytes?_append, Option.bind_some]
  split
  · rfl
  · next word last =>
    obtain ⟨tokens, cut⟩ := lastToken?_eq_some_iff.1 last
    refine if_neg fun isHere => ?_
    rw [Bool.and_eq_true, beq_iff_eq] at isHere
    exact elsewhere tokens word ⟨cut, isHere.1, isHere.2⟩

/-! An offer in the place of the word -/

/-- A part of a text is cut into tokens, and into one more with a word behind it. -/
structure Inserts (kept : List Char) (tokens : List Token) (name : String) : Prop where
  alone : tokenize kept = .ok (tokens ++ [Token.ending (byteWidth kept)])
  behind : tokenize (kept ++ name.toList) = .ok (tokens ++
    [wordAt (byteWidth kept) name, Token.ending (byteWidth (kept ++ name.toList))])

theorem cuts_word {name : String} (isWord : name.toList ∈ Pattern.word.texts) (start : Nat) :
    Stream.Cuts start name.toList
      (.token (wordAt start name) (.ending (start + byteWidth name.toList))) := by
  obtain ⟨first, tail, text, letter, parts⟩ := Pattern.mem_word.1 isWord
  have spells := spells_word letter parts rfl
  have spelled : String.ofList (first :: tail) = name := by rw [← text, String.ofList_toList]
  have cuts : Stream.Cuts start ([] ++ first :: (tail ++ [])) _ :=
    .token .nil (spells.isStart (.inl rfl)) (spells.reads [] (.inl rfl)) rfl rfl (.ending .nil rfl)
  rw [List.nil_append, List.append_nil, spelled, ← text] at cuts
  exact cuts

/-- A word in the place of one that it continues is read there, and nothing before it changes. -/
theorem EndsIn.exists_kept (ends : EndsIn before tokens word) :
    ∃ kept, before = kept ++ word.lexeme.toList ∧ word.span.start = byteWidth kept ∧
      ∀ name : String, word.lexeme.toList <+: name.toList → name.toList ∈ Pattern.word.texts →
        Inserts kept tokens name := by
  obtain ⟨earlier, same, scanned⟩ := scan_of_tokenize ends.cut
  obtain rfl : tokens ++ [word] = earlier := by
    rw [List.append_cons tokens word] at same
    exact List.append_left_injective _ same
  have cuts := scanned ▸ Stream.cuts_scan 0 before
  obtain ⟨kept, first, tail, rfl, text, start, precedes⟩ := cuts.exists_precedes_last ends.touches
  have alone := precedes.alone
  have followed := precedes.followed
  rw [Nat.zero_add] at start alone followed
  refine ⟨kept, by rw [text], start, fun name continues isWord => ?_⟩
  -- the word and what continues it start with the same character
  obtain ⟨more, whole⟩ := continues
  rw [text, List.cons_append] at whole
  have cutsWord := cuts_word isWord (byteWidth kept)
  rw [← whole] at cutsWord
  constructor
  · exact tokenize_of_scan alone.eq_scan.symm
  · have read := (followed _ _ _ cutsWord rfl).eq_scan.symm
    rw [byteWidth_append, List.append_cons, ← whole]
    exact tokenize_of_scan (read.trans (Stream.after_append tokens [_] _).symm)

/-- An answer for a line with the cursor between two parts of it: where the word before the cursor
starts and what it can become. -/
structure Answers (store : Store) (scope : ScopeId) (before after : List Char)
    (answer : Nat × List String) : Prop where
  offers : answer.2 ≠ [] ↔ ∃ tokens word name, EndsIn before tokens word ∧
    IsAvailable store scope name ∧ word.lexeme.toList <+: name.toList
  elsewhere : (∀ tokens word, ¬ EndsIn before tokens word) → answer = (byteWidth before, [])
  start : ∀ tokens word, EndsIn before tokens word → answer.1 = word.span.start
  members : ∀ tokens word, EndsIn before tokens word → ∀ name, name ∈ answer.2 ↔
    IsAvailable store scope name ∧ word.lexeme.toList <+: name.toList
  increasing : answer.2.Pairwise fun first second => utf8Bytes first < utf8Bytes second
  safe : ∀ tokens word, EndsIn before tokens word →
    ∃ kept, takeBytes? answer.1 (before ++ after) = some kept ∧ ∀ name ∈ answer.2,
      name.toList ∈ Pattern.word.texts → Inserts kept tokens name

theorem mem_candidates_visibleNames_iff {store : Store} {scope : ScopeId} {start name : String} :
    name ∈ candidates (store.visibleNames scope) start ↔
      IsAvailable store scope name ∧ start.toList <+: name.toList := by
  rw [mem_candidates_iff, Store.mem_visibleNames_iff, IsAvailable]

theorem EndsIn.answers (ends : EndsIn before tokens word) (store : Store) (scope : ScopeId)
    (after : List Char) :
    Answers store scope before after
      (word.span.start, candidates (store.visibleNames scope) word.lexeme) where
  offers := by
    constructor
    · intro some
      obtain ⟨name, member⟩ := List.exists_mem_of_ne_nil _ some
      obtain ⟨known, continues⟩ := mem_candidates_visibleNames_iff.1 member
      exact ⟨tokens, word, name, ends, known, continues⟩
    · rintro ⟨_, other, name, endsToo, known, continues⟩
      obtain rfl := ends.word_eq endsToo
      exact List.ne_nil_of_mem (mem_candidates_visibleNames_iff.2 ⟨known, continues⟩)
  elsewhere nowhere := absurd ends (nowhere tokens word)
  start _ _ endsToo := by rw [ends.word_eq endsToo]
  members _ _ endsToo _ := by
    rw [ends.word_eq endsToo]
    exact mem_candidates_visibleNames_iff
  increasing := (isIncreasing_candidates _ _).imp utf8Bytes_lt
  safe _ other endsToo := by
    obtain rfl := ends.word_eq endsToo
    obtain ⟨kept, rfl, start, inserts⟩ := endsToo.exists_kept
    refine ⟨kept, ?_, fun name member isWord => ?_⟩
    · rw [start, List.append_assoc, takeBytes?_append]
    · exact inserts name (mem_candidates_visibleNames_iff.1 member).2 isWord

theorem answers_of_not_endsIn (elsewhere : ∀ tokens word, ¬ EndsIn before tokens word)
    (store : Store) (scope : ScopeId) (after : List Char) :
    Answers store scope before after (byteWidth before, []) where
  offers := by
    refine iff_of_false (fun some => some rfl) ?_
    rintro ⟨tokens, word, _, ends, _⟩
    exact elsewhere tokens word ends
  elsewhere _ := rfl
  start tokens word ends := absurd ends (elsewhere tokens word)
  members tokens word ends := absurd ends (elsewhere tokens word)
  increasing := .nil
  safe tokens word ends := absurd ends (elsewhere tokens word)

/-- Completion offers the available names that continue the word that ends at the cursor, each once and
in the order of their bytes. In the place of the word each of them is read as one token if it is a
word. Which names are found decides on the answer, so the order in which they were bound does not. -/
theorem complete_answers (store : Store) (scope : ScopeId) (before after : List Char) :
    Answers store scope before after
      (complete (store.visibleNames scope) (before ++ after) (byteWidth before)) ∧
    (∀ other place,
      (∀ name, (∃ owner, Store.owner? other place name = some owner) ↔
        ∃ owner, store.owner? scope name = some owner) →
      complete (other.visibleNames place) (before ++ after) (byteWidth before) =
        complete (store.visibleNames scope) (before ++ after) (byteWidth before)) ∧
    ∀ first second : List Store.Binding, first.Perm second →
      complete ((store.bindAll first).visibleNames scope) (before ++ after) (byteWidth before) =
        complete ((store.bindAll second).visibleNames scope) (before ++ after)
          (byteWidth before) := by
  refine ⟨?_, fun other place same => ?_, fun first second perm => ?_⟩
  · by_cases somewhere : ∃ tokens word, EndsIn before tokens word
    · obtain ⟨tokens, word, ends⟩ := somewhere
      rw [complete_of_endsIn ends]
      exact ends.answers store scope after
    · have elsewhere (tokens : List Token) (word : Token) : ¬ EndsIn before tokens word :=
        fun ends => somewhere ⟨tokens, word, ends⟩
      rw [complete_of_not_endsIn elsewhere]
      exact answers_of_not_endsIn elsewhere store scope after
  · refine complete_congr (fun name => ?_) _ _
    rw [Store.mem_visibleNames_iff, Store.mem_visibleNames_iff, same]
  · refine complete_congr (fun name => ?_) _ _
    rw [Store.mem_visibleNames_iff, Store.mem_visibleNames_iff, Store.owner?_bindAll_of_perm perm]

/-- Behind a sign, two names and a reserved word continue a word, and the last can stand for it. -/
theorem word_behind_sign_is_completed :
    let store := (Store.empty.addFrame none).2.bindAll [⟨0, "foo", .nil⟩, ⟨0, "fob", .nil⟩]
    let tokens : List Token := [⟨.identifier "x", "x", ⟨0, 1⟩⟩, ⟨.mark .plus, "+", ⟨1, 2⟩⟩]
    EndsIn "x+fo".toList tokens ⟨.identifier "fo", "fo", ⟨2, 4⟩⟩ ∧
      complete (store.visibleNames 0) ("x+fo".toList ++ ")".toList) 4 =
        (2, ["fob", "foo", "for"]) ∧
      Inserts "x+".toList tokens "for" := by
  intro store tokens
  have ends : EndsIn "x+fo".toList tokens ⟨.identifier "fo", "fo", ⟨2, 4⟩⟩ :=
    ⟨by decide +kernel, rfl, by decide⟩
  have answer : complete (store.visibleNames 0) ("x+fo".toList ++ ")".toList) 4 =
      (2, ["fob", "foo", "for"]) := by decide +kernel
  obtain ⟨answers, _⟩ := complete_answers store 0 "x+fo".toList ")".toList
  obtain ⟨kept, taken, inserts⟩ := answers.safe tokens _ ends
  have width : byteWidth "x+fo".toList = 4 := by decide
  have sign : takeBytes? 2 ("x+fo".toList ++ ")".toList) = some "x+".toList := by decide
  rw [width, answer] at taken inserts
  obtain rfl : "x+".toList = kept := Option.some.inj (sign.symm.trans taken)
  exact ⟨ends, answer, inserts "for" (by decide) (Pattern.keyword_mem_word .forWord)⟩

end Completion

end Scriptlet
