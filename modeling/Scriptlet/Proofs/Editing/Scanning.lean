import Scriptlet.Editing.Validation
import Scriptlet.Proofs.Grammar.Nested

/-! A scan of the characters meets the brackets of the tokens, and nothing else. -/

set_option autoImplicit false

namespace Scriptlet

theorem Kind.isPlain_of_isWord {kind : Kind} (word : kind.isWord = true) : kind.IsPlain := by
  unfold Kind.isWord at word
  split at word
  · exact ⟨rfl, rfl⟩
  · exact ⟨rfl, rfl⟩
  · cases word

namespace Brackets

def stand (brackets : Brackets) (mode : ScanMode) : Brackets := { brackets with mode := mode }

theorem stand_mode (brackets : Brackets) : brackets.stand brackets.mode = brackets := rfl

def meet (brackets : Brackets) (kind : Kind) (offset : Nat) : Brackets :=
  match kind.opens? with
  | some bracket => { brackets with opened := (bracket, offset) :: brackets.opened }
  | none =>
    match kind.closes? with
    | some bracket => brackets.close bracket offset
    | none => brackets

def meetAll (brackets : Brackets) (tokens : List Token) : Brackets :=
  tokens.foldl (fun brackets token => brackets.meet token.kind token.span.start) brackets

theorem meetAll_append (brackets : Brackets) (low high : List Token) :
    brackets.meetAll (low ++ high) = (brackets.meetAll low).meetAll high :=
  List.foldl_append

theorem meetAll_cons (brackets : Brackets) (token : Token) (tokens : List Token) :
    brackets.meetAll (token :: tokens) =
      (brackets.meet token.kind token.span.start).meetAll tokens := rfl

theorem mode_close (brackets : Brackets) (bracket : Bracket) (offset : Nat) :
    (brackets.close bracket offset).mode = brackets.mode := by
  unfold close
  split
  · rfl
  · split <;> rfl

theorem mode_meet (brackets : Brackets) (kind : Kind) (offset : Nat) :
    (brackets.meet kind offset).mode = brackets.mode := by
  unfold meet
  split
  · rfl
  · split
    · exact mode_close brackets _ offset
    · rfl

theorem meet_of_isPlain {kind : Kind} (plain : kind.IsPlain) (brackets : Brackets) (offset : Nat) :
    brackets.meet kind offset = brackets := by
  unfold meet
  rw [plain.1, plain.2]

theorem meet_of_opens {kind : Kind} {bracket : Bracket} (opens : kind.opens? = some bracket)
    (brackets : Brackets) (offset : Nat) :
    brackets.meet kind offset =
      { brackets with opened := (bracket, offset) :: brackets.opened } := by
  unfold meet
  rw [opens]

theorem meet_of_closes {kind : Kind} {bracket : Bracket} (closes : kind.closes? = some bracket)
    (brackets : Brackets) (offset : Nat) :
    brackets.meet kind offset = brackets.close bracket offset := by
  have noOpening : kind.opens? = none := by
    unfold Kind.closes? at closes
    split at closes
    · rfl
    · rfl
    · cases closes
  unfold meet
  rw [noOpening, closes]

/-! Nested tokens leave nothing open and nothing unmatched -/

theorem close_same (brackets : Brackets) {bracket : Bracket} {place : Nat}
    {rest : List (Bracket × Nat)} (top : brackets.opened = (bracket, place) :: rest)
    (offset : Nat) :
    (brackets.close bracket offset).opened = rest ∧
      (brackets.close bracket offset).unmatched = brackets.unmatched := by
  unfold close
  rw [top]
  simp

theorem meetAll_nested {tokens : List Token} (nested : Nested tokens) (brackets : Brackets) :
    (brackets.meetAll tokens).opened = brackets.opened ∧
      (brackets.meetAll tokens).unmatched = brackets.unmatched := by
  induction nested generalizing brackets with
  | nil => exact ⟨rfl, rfl⟩
  | plain plain _ ih =>
    rw [meetAll_cons, meet_of_isPlain plain]
    exact ih brackets
  | @enclosed opening closing inner tokens bracket left right _ _ ihInner ihAfter =>
    rw [meetAll_cons, meetAll_append, meetAll_cons]
    -- what is between leaves the opening bracket on top
    rw [meet_of_opens left]
    obtain ⟨openInner, unmatchedInner⟩ :=
      ihInner { brackets with opened := (bracket, opening.span.start) :: brackets.opened }
    rw [meet_of_closes right]
    obtain ⟨openAfter, unmatchedAfter⟩ := close_same _ openInner closing.span.start
    obtain ⟨openRest, unmatchedRest⟩ := ihAfter (close _ bracket closing.span.start)
    exact ⟨openRest.trans openAfter, unmatchedRest.trans (unmatchedAfter.trans unmatchedInner)⟩

/-! Characters that a scan goes past -/

/-- The characters with a meaning outside of strings and comments. -/
def marked : List Char := ['"', '/', '(', ')', '\x7b', '\x7d']

theorem scanFrom_cons (offset : Nat) (brackets : Brackets) (c : Char) (rest : List Char) :
    brackets.scanFrom offset (c :: rest) =
      (brackets.step offset c rest.head?).scanFrom (offset + c.utf8Size) rest := rfl

theorem scanFrom_append {brackets : Brackets} {text : List Char}
    (same : ∀ c ∈ text, ∀ offset next, brackets.step offset c next = brackets)
    (offset : Nat) (after : List Char) :
    brackets.scanFrom offset (text ++ after) =
      brackets.scanFrom (offset + byteWidth text) after := by
  induction text generalizing offset with
  | nil => rfl
  | cons c text ih =>
    obtain ⟨first, others⟩ := List.forall_mem_cons.1 same
    rw [List.cons_append, scanFrom_cons, first, ih others, byteWidth, Nat.add_assoc]

theorem step_of_not_marked {brackets : Brackets} (code : brackets.mode = .code) {c : Char}
    (plain : c ∉ marked) (offset : Nat) (next : Option Char) :
    brackets.step offset c next = brackets := by
  simp only [marked, List.mem_cons, List.not_mem_nil, or_false, not_or] at plain
  obtain ⟨quote, slash, leftParen, rightParen, leftBrace, rightBrace⟩ := plain
  have opening : Bracket.opening? c = none := by
    unfold Bracket.opening?
    split <;> simp_all
  have closing : Bracket.closing? c = none := by
    unfold Bracket.closing?
    split <;> simp_all
  simp [step, code, stepCode, quote, slash, opening, closing]

theorem scanFrom_of_not_marked {brackets : Brackets} (code : brackets.mode = .code)
    {text : List Char} (plain : ∀ c ∈ text, c ∉ marked) (offset : Nat) (after : List Char) :
    brackets.scanFrom offset (text ++ after) =
      brackets.scanFrom (offset + byteWidth text) after :=
  scanFrom_append (fun c isIn => step_of_not_marked code (plain c isIn)) offset after

theorem not_marked_of_holds {holds : Char → Bool} (others : marked.all fun c => !holds c)
    {c : Char} (isSo : holds c = true) : c ∉ marked := by
  intro isIn
  have notSo := List.all_eq_true.1 others c isIn
  rw [isSo] at notSo
  cases notSo

theorem not_marked_of_all {text : List Char}
    (plain : (text.all fun c => !marked.contains c) = true) {c : Char} (isIn : c ∈ text) :
    c ∉ marked := by
  intro isMarked
  have notSo := List.all_eq_true.1 plain c isIn
  rw [List.contains_iff_mem.2 isMarked] at notSo
  cases notSo

theorem step_comment {brackets : Brackets} (comment : brackets.mode = .comment) {c : Char}
    (noFeed : c ≠ '\n') (offset : Nat) (next : Option Char) :
    brackets.step offset c next = brackets := by
  simp [step, comment, noFeed]

theorem scanFrom_feed {brackets : Brackets} (code : brackets.mode = .code) (offset : Nat)
    (rest : List Char) :
    (brackets.stand .comment).scanFrom offset ('\n' :: rest) =
      brackets.scanFrom offset ('\n' :: rest) := by
  have feed : (brackets.stand .comment).step offset '\n' rest.head? = brackets := by
    rw [← stand_mode brackets, code]
    rfl
  rw [scanFrom_cons, scanFrom_cons, feed, step_of_not_marked code (by decide)]

theorem scanFrom_slashes {brackets : Brackets} (code : brackets.mode = .code) {text : List Char}
    (noFeed : '\n' ∉ text) (offset : Nat) (after : List Char) :
    brackets.scanFrom offset ('/' :: '/' :: (text ++ after)) =
      (brackets.stand .comment).scanFrom (offset + byteWidth ('/' :: '/' :: text)) after := by
  have enters (offset : Nat) : brackets.step offset '/' (some '/') = brackets.stand .comment := by
    simp [step, code, stepCode, stand]
  have stays : ∀ c ∈ '/' :: text, ∀ offset next,
      (brackets.stand .comment).step offset c next = brackets.stand .comment := by
    intro c isIn offset next
    refine step_comment rfl ?_ offset next
    rintro rfl
    rcases List.mem_cons.1 isIn with slash | isIn
    · exact absurd slash (by decide)
    · exact noFeed isIn
  have whole := scanFrom_append stays (offset + '/'.utf8Size) after
  rw [scanFrom_cons, List.head?_cons, enters]
  rw [Nat.add_assoc] at whole
  exact whole

/-- A gap is gone past. Only a comment at the end of a text is still open then. -/
theorem scanFrom_gap {after gap : List Char} (isGap : IsGap after gap)
    (stops : ∀ c ∈ after.head?, isSpace c = false) {brackets : Brackets}
    (code : brackets.mode = .code) (offset : Nat) :
    ∃ mode, (mode = .code ∨ mode = .comment ∧ after = []) ∧
      brackets.scanFrom offset (gap ++ after) =
        (brackets.stand mode).scanFrom (offset + byteWidth gap) after := by
  induction isGap generalizing offset with
  | nil => exact ⟨.code, .inl rfl, by rw [← code]; rfl⟩
  | @blank c gap space _ ih =>
    obtain ⟨mode, ends, same⟩ := ih (offset + c.utf8Size)
    refine ⟨mode, ends, ?_⟩
    rw [List.cons_append, scanFrom_cons,
      step_of_not_marked code (not_marked_of_holds (by decide) space), same, byteWidth,
      Nat.add_assoc]
  | @comment text gap noFeed feed _ ih =>
    have slashes := scanFrom_slashes code noFeed offset (gap ++ after)
    have shape : ('/' :: '/' :: (text ++ gap)) ++ after = '/' :: '/' :: (text ++ (gap ++ after)) := by
      simp
    have width : offset + byteWidth ('/' :: '/' :: (text ++ gap)) =
        offset + byteWidth ('/' :: '/' :: text) + byteWidth gap := by
      rw [Nat.add_assoc, ← byteWidth_append]
      rfl
    rw [shape, slashes, width]
    cases gap with
    | nil =>
      cases after with
      | nil => exact ⟨.comment, .inr ⟨rfl, rfl⟩, rfl⟩
      | cons c more =>
        -- what follows a gap is no space, so no line feed
        have space := stops c rfl
        rw [feed c rfl] at space
        cases space
    | cons c gap =>
      have isFeed := feed c rfl
      subst isFeed
      rw [List.cons_append, scanFrom_feed code]
      exact ih _

theorem step_quote {brackets : Brackets} (code : brackets.mode = .code) (offset : Nat)
    (next : Option Char) : brackets.step offset '"' next = brackets.stand .string := by
  simp [step, code, stepCode, stand]

theorem step_string {brackets : Brackets} (string : brackets.mode = .string) {c : Char}
    (noQuote : c ≠ '"') (noBackslash : c ≠ '\\') (offset : Nat) (next : Option Char) :
    brackets.step offset c next = brackets := by
  simp [step, string, noBackslash, noQuote]

theorem scanFrom_string {rest value taken after : List Char}
    (closed : StringBody.read rest = .closed value taken after) {brackets : Brackets}
    (code : brackets.mode = .code) (offset : Nat) :
    (brackets.stand .string).scanFrom offset rest =
      brackets.scanFrom (offset + byteWidth taken) after := by
  fun_induction StringBody.read rest generalizing value taken after offset with
  | case1 => cases closed
  | case2 more =>
    cases closed
    rw [scanFrom_cons, ← stand_mode brackets, code]
    rfl
  | case3 => cases closed
  | case4 mark more c _ ih =>
    cases body : StringBody.read more <;> rw [body] at closed <;> cases closed
    rw [scanFrom_cons, scanFrom_cons]
    have escaped : ((brackets.stand .string).step offset '\\' (mark :: more).head?).step
        (offset + '\\'.utf8Size) mark more.head? = brackets.stand .string := rfl
    rw [escaped, ih body]
    simp only [byteWidth_append, byteWidth, Nat.add_assoc, Nat.add_zero]
  | case5 => cases closed
  | case6 c more noQuote noEnd noMark ih =>
    cases body : StringBody.read more <;> rw [body] at closed <;> cases closed
    have noBackslash := StringBody.ne_backslash noEnd noMark
    rw [scanFrom_cons, step_string rfl noQuote noBackslash, ih body]
    simp only [byteWidth_append, byteWidth, Nat.add_assoc, Nat.add_zero]

theorem scanFrom_mark (symbol : Mark) {after : List Char}
    (noComment : symbol.spelling.toList = ['/'] → after.head? ≠ some '/') {brackets : Brackets}
    (code : brackets.mode = .code) (offset : Nat) :
    brackets.scanFrom offset (symbol.spelling.toList ++ after) =
      (brackets.meet (.mark symbol) offset).scanFrom
        (offset + byteWidth symbol.spelling.toList) after := by
  have bracket (c : Char) (text : symbol.spelling.toList = [c])
      (met : ∀ next, brackets.step offset c next = brackets.meet (.mark symbol) offset) :
      brackets.scanFrom offset (symbol.spelling.toList ++ after) =
        (brackets.meet (.mark symbol) offset).scanFrom
          (offset + byteWidth symbol.spelling.toList) after := by
    rw [text, List.singleton_append, scanFrom_cons, met]
    rfl
  cases symbol
  case leftParen => exact bracket '(' rfl fun _ => by rw [step, code]; rfl
  case leftBrace => exact bracket '\x7b' rfl fun _ => by rw [step, code]; rfl
  case rightParen => exact bracket ')' rfl fun _ => by rw [step, code]; rfl
  case rightBrace => exact bracket '\x7d' rfl fun _ => by rw [step, code]; rfl
  case slash =>
    have alone : brackets.step offset '/' after.head? = brackets := by
      have next := noComment rfl
      simp [step, code, stepCode, next]
      rfl
    exact congrArg (scanFrom _ · _) alone
  all_goals exact scanFrom_of_not_marked code (fun c isIn => not_marked_of_all rfl isIn) offset after

theorem scanFrom_lexeme {kind : Kind} {text after : List Char} (isLexeme : IsLexeme kind text)
    (noComment : text = ['/'] → after.head? ≠ some '/') {brackets : Brackets}
    (code : brackets.mode = .code) (offset : Nat) :
    brackets.scanFrom offset (text ++ after) =
      (brackets.meet kind offset).scanFrom (offset + byteWidth text) after := by
  cases isLexeme with
  | number parts =>
    refine scanFrom_of_not_marked code (fun c isIn => ?_) offset after
    rcases parts c isIn with digit | rfl
    · exact not_marked_of_holds (by decide) digit
    · decide
  | word word parts =>
    rw [meet_of_isPlain (Kind.isPlain_of_isWord word)]
    exact scanFrom_of_not_marked code
      (fun c isIn => not_marked_of_holds (by decide) (parts c isIn)) offset after
  | @string value taken closed =>
    rw [List.cons_append, scanFrom_cons, step_quote code, scanFrom_string (closed after) code, byteWidth,
      Nat.add_assoc]
    rfl
  | mark symbol => exact scanFrom_mark symbol noComment code offset

/-- Where a token or a fault follows a gap, a scan goes past the gap. -/
theorem scanFrom_start {first : Char} {rest gap : List Char} (isGap : IsGap (first :: rest) gap)
    (isStart : IsStart first rest) {brackets : Brackets} (code : brackets.mode = .code)
    (offset : Nat) :
    brackets.scanFrom offset (gap ++ first :: rest) =
      brackets.scanFrom (offset + byteWidth gap) (first :: rest) := by
  have noSpace : ∀ c ∈ (first :: rest).head?, isSpace c = false := by
    intro c same
    cases same
    exact isStart.1
  obtain ⟨mode, isCode | ⟨_, none⟩, gone⟩ := scanFrom_gap isGap noSpace code offset
  · rw [gone, isCode, ← code, stand_mode]
  · cases none

/-- A text is scanned as the tokens it is cut into are met, one after the other. -/
theorem scanFrom_after {offset : Nat} {text : List Char} {tokens : List Token} {stream : Stream}
    (cuts : Stream.Cuts offset text (Stream.after tokens stream)) {brackets : Brackets}
    (code : brackets.mode = .code) :
    ∃ place rest, Stream.Cuts place rest stream ∧
      brackets.scanFrom offset text = (brackets.meetAll tokens).scanFrom place rest := by
  induction tokens generalizing offset text brackets with
  | nil => exact ⟨offset, text, cuts, rfl⟩
  | cons head tokens ih =>
    cases cuts with
    | @token _ start stop gap tail after first kind _ isGap isStart found start_eq stop_eq cuts =>
      have noComment : first :: tail = ['/'] → after.head? ≠ some '/' := by
        rintro ⟨⟩
        exact isStart.2 rfl
      have met := scanFrom_lexeme (Lexeme.isLexeme_of_read found) noComment code start
      obtain ⟨place, rest, ends, same⟩ := ih cuts ((mode_meet brackets kind start).trans code)
      refine ⟨place, rest, ends, ?_⟩
      rw [scanFrom_start isGap isStart code, meetAll_cons, ← same, stop_eq, ← start_eq]
      exact met

theorem mode_meetAll (brackets : Brackets) (tokens : List Token) :
    (brackets.meetAll tokens).mode = brackets.mode := by
  induction tokens generalizing brackets with
  | nil => rfl
  | cons token tokens ih => exact (ih _).trans (mode_meet brackets _ _)

theorem scanFrom_cuts {offset stop : Nat} {text : List Char} {tokens : List Token}
    {stream : Stream} (cuts : Stream.Cuts offset text stream)
    (ends : stream = Stream.after tokens (.ending stop)) {brackets : Brackets}
    (code : brackets.mode = .code) :
    ∃ mode, (mode = .code ∨ mode = .comment) ∧
      brackets.scanFrom offset text = (brackets.meetAll tokens).stand mode := by
  subst ends
  obtain ⟨place, rest, ends, same⟩ := scanFrom_after cuts code
  cases ends with
  | ending isGap =>
    have codeNow := (mode_meetAll brackets tokens).trans code
    obtain ⟨mode, isMode, gone⟩ := scanFrom_gap isGap (by simp) codeNow place
    rw [List.append_nil] at gone
    exact ⟨mode, isMode.imp_right And.left, same.trans gone⟩

/-! What is unmatched stays so -/

theorem unmatched_close (brackets : Brackets) (bracket : Bracket) (offset : Nat) :
    ∃ more, (brackets.close bracket offset).unmatched = brackets.unmatched ++ more := by
  unfold close
  split
  · exact ⟨_, rfl⟩
  · split
    · exact ⟨[], (List.append_nil _).symm⟩
    · exact ⟨_, rfl⟩

theorem unmatched_step (brackets : Brackets) (offset : Nat) (c : Char) :
    ∃ more, ∀ next, (brackets.step offset c next).unmatched = brackets.unmatched ++ more := by
  have nothing (stays : ∀ next, (brackets.step offset c next).unmatched = brackets.unmatched) :
      ∃ more, ∀ next, (brackets.step offset c next).unmatched = brackets.unmatched ++ more :=
    ⟨[], fun next => by rw [stays, List.append_nil]⟩
  cases mode : brackets.mode with
  | string =>
    refine nothing fun next => ?_
    simp only [step, mode]
    split
    · rfl
    · split <;> rfl
  | escape => exact nothing fun next => by simp only [step, mode]
  | comment =>
    refine nothing fun next => ?_
    simp only [step, mode]
    split <;> rfl
  | code =>
    simp only [step, mode]
    -- outside of strings and comments only a closing bracket can add something
    by_cases closes : ∃ bracket, Bracket.closing? c = some bracket
    · obtain ⟨bracket, closes⟩ := closes
      obtain ⟨more, same⟩ := unmatched_close brackets bracket offset
      refine ⟨more, fun next => ?_⟩
      have isClosing : c = ')' ∨ c = '\x7d' := by
        unfold Bracket.closing? at closes
        split at closes
        · exact .inl rfl
        · exact .inr rfl
        · cases closes
      rw [← same]
      rcases isClosing with rfl | rfl <;> cases closes <;> rfl
    · refine ⟨[], fun next => ?_⟩
      rw [List.append_nil]
      unfold stepCode
      split
      · rfl
      · split
        · rfl
        · split
          · rfl
          · split
            · next bracket isClosing => exact absurd ⟨bracket, isClosing⟩ closes
            · rfl

theorem unmatched_scanFrom (brackets : Brackets) (offset : Nat) (text : List Char) :
    ∃ more, (brackets.scanFrom offset text).unmatched = brackets.unmatched ++ more := by
  induction text generalizing brackets offset with
  | nil => exact ⟨[], (List.append_nil _).symm⟩
  | cons c rest ih =>
    obtain ⟨first, stepped⟩ := unmatched_step brackets offset c
    obtain ⟨more, same⟩ := ih (brackets.step offset c rest.head?) (offset + c.utf8Size)
    exact ⟨first ++ more, by rw [scanFrom_cons, same, stepped, List.append_assoc]⟩

/-- A longer text leaves unmatched what its beginning does. -/
theorem unmatched_scanFrom_append (brackets : Brackets) (offset : Nat) (text after : List Char) :
    ∃ more, (brackets.scanFrom offset (text ++ after)).unmatched =
      (brackets.scanFrom offset text).unmatched ++ more := by
  induction text generalizing brackets offset with
  | nil => exact unmatched_scanFrom brackets offset after
  | cons c rest ih =>
    cases rest with
    | nil =>
      -- the next character is another one now, which changes nothing about what is unmatched
      obtain ⟨first, stepped⟩ := unmatched_step brackets offset c
      obtain ⟨more, same⟩ := unmatched_scanFrom (brackets.step offset c after.head?)
        (offset + c.utf8Size) after
      refine ⟨more, ?_⟩
      rw [List.singleton_append, scanFrom_cons, same, stepped]
      exact congrArg (· ++ more) (stepped none).symm
    | cons next rest => exact ih _ _

end Brackets

/-- A scan of a program finds all brackets paired and all strings closed. -/
theorem scan_of_readProgram {input : List Char} {tree : Node}
    (read : readProgram input = .ok tree) :
    (Brackets.scan input).unmatched = [] ∧ (Brackets.scan input).opened = [] ∧
      (Brackets.scan input).inString = false := by
  obtain ⟨tokens, offset, statements, ends, _, derives⟩ := derives_of_readProgram read
  have code : Brackets.empty.mode = .code := rfl
  obtain ⟨mode, isMode, same⟩ := Brackets.scanFrom_cuts (Stream.cuts_scan 0 input) ends code
  obtain ⟨opened, unmatched⟩ := Brackets.meetAll_nested derives.nested .empty
  rw [Brackets.scan, same]
  refine ⟨unmatched, opened, ?_⟩
  rcases isMode with rfl | rfl <;> rfl

theorem validate_of_readProgram {input : List Char} {tree : Node}
    (read : readProgram input = .ok tree) : validate input = .valid := by
  obtain ⟨unmatched, opened, inString⟩ := scan_of_readProgram read
  simp [validate, unmatched, opened, inString]

theorem validate_eq_unmatched_iff {input : List Char} {offset : Nat} :
    validate input = .unmatched offset ↔ (Brackets.scan input).unmatched.head? = some offset := by
  unfold validate
  dsimp only
  split
  · next first rest found =>
    rw [found]
    simp
  · next none =>
    rw [none]
    split <;> simp

theorem validate_append {input : List Char} {offset : Nat}
    (refused : validate input = .unmatched offset) (more : List Char) :
    validate (input ++ more) = .unmatched offset := by
  obtain ⟨others, same⟩ := Brackets.unmatched_scanFrom_append .empty 0 input more
  rw [validate_eq_unmatched_iff] at refused ⊢
  rw [Brackets.scan, same, List.head?_append, ← Brackets.scan, refused, Option.some_or]

/-- An input that is a program is taken as complete. An input that is refused is no program, whatever
is appended to it. -/
theorem validate_agrees_with_readProgram (input : List Char) :
    (∀ tree, readProgram input = .ok tree →
      (Brackets.scan input).unmatched = [] ∧ (Brackets.scan input).opened = [] ∧
        (Brackets.scan input).inString = false ∧ validate input = .valid) ∧
    ∀ offset, validate input = .unmatched offset → ∀ more,
      ∃ error, readProgram (input ++ more) = .error error := by
  refine ⟨fun tree read => ?_, fun offset refused more => ?_⟩
  · obtain ⟨unmatched, opened, inString⟩ := scan_of_readProgram read
    exact ⟨unmatched, opened, inString, validate_of_readProgram read⟩
  · cases read : readProgram (input ++ more) with
    | error error => exact ⟨error, rfl⟩
    | ok tree =>
      have valid := validate_of_readProgram read
      rw [validate_append refused more] at valid
      cases valid

/-- A call with a bracket in a string and one in a comment is taken; a lone closing brace is
refused. -/
theorem call_is_taken_and_brace_refused :
    ((∃ tree, readProgram "f(\")\"); // (".toList = .ok tree) ∧
      validate "f(\")\"); // (".toList = .valid) ∧
    validate "\x7d".toList = .unmatched 0 ∧
      ∃ error, readProgram ("\x7d".toList ++ "\n1;".toList) = .error error := by
  have shape : (readProgram "f(\")\"); // (".toList).toOption.isSome = true := by decide +kernel
  have brace : validate "\x7d".toList = .unmatched 0 := by decide
  obtain ⟨taken, _⟩ := validate_agrees_with_readProgram "f(\")\"); // (".toList
  obtain ⟨_, refused⟩ := validate_agrees_with_readProgram "\x7d".toList
  refine ⟨?_, brace, refused 0 brace _⟩
  cases read : readProgram "f(\")\"); // (".toList with
  | ok tree => exact ⟨⟨tree, rfl⟩, (taken tree read).2.2.2⟩
  | error error =>
    rw [read] at shape
    cases shape

end Scriptlet
