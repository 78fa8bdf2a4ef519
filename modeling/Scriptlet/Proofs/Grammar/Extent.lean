import Scriptlet.Proofs.Grammar.Parts

/-! The spans of the nodes of a program nest as the nodes do, each over some of its tokens in a row. -/

set_option autoImplicit false

namespace Scriptlet

namespace Span

def Inside (inner outer : Span) : Prop := outer.start ≤ inner.start ∧ inner.stop ≤ outer.stop

def Apart (span other : Span) : Prop := span.stop ≤ other.start ∨ other.stop ≤ span.start

theorem Apart.symm {span other : Span} (apart : span.Apart other) : other.Apart span := Or.symm apart

/-- Between the start of one token of a row and the end of another. -/
def Among (span : Span) (tokens : List Token) : Prop :=
  ∃ first ∈ tokens, ∃ last ∈ tokens, first.span.start ≤ span.start ∧ span.stop ≤ last.span.stop

variable {span other : Span} {tokens more : List Token}

theorem Among.mono (among : span.Among tokens) (part : tokens ⊆ more) : span.Among more := by
  obtain ⟨first, isFirst, last, isLast, bounds⟩ := among
  exact ⟨first, part isFirst, last, part isLast, bounds⟩

theorem Among.of_mem {token : Token} (member : token ∈ tokens) : token.span.Among tokens :=
  ⟨token, member, token, member, Nat.le_refl _, Nat.le_refl _⟩

theorem Among.before {low high : List Token} (among : span.Among low) (later : other.Among high)
    (order : Token.InOrder (low ++ high)) : span.stop ≤ other.start := by
  obtain ⟨_, _, last, isLast, _, stops⟩ := among
  obtain ⟨first, isFirst, _, _, starts, _⟩ := later
  have between := (List.pairwise_append.1 order.2).2.2 last isLast first isFirst
  omega

theorem Covers.among (covers : span.Covers tokens) : span.Among tokens := by
  obtain ⟨first, last, isFirst, isLast, rfl⟩ := covers
  exact ⟨first, List.mem_of_mem_head? isFirst, last, List.mem_of_mem_getLast? isLast,
    Nat.le_refl _, Nat.le_refl _⟩

theorem Covers.inside (covers : span.Covers tokens) (order : Token.InOrder tokens)
    (among : other.Among tokens) : other.Inside span := by
  obtain ⟨head, foot, isHead, isEnd, rfl⟩ := covers
  obtain ⟨first, isFirst, last, isLast, starts, stops⟩ := among
  have earliest : head.span.start ≤ first.span.start := by
    obtain ⟨rest, rfl⟩ := List.head?_eq_some_iff.1 isHead
    have forward := order.1 head List.mem_cons_self
    rcases List.mem_cons.1 isFirst with rfl | later
    · exact Nat.le_refl _
    · have between := (List.pairwise_cons.1 order.2).1 first later
      omega
  have latest : last.span.stop ≤ foot.span.stop := by
    obtain ⟨rest, rfl⟩ := List.getLast?_eq_some_iff.1 isEnd
    have forward := order.1 foot (List.mem_append_right rest (List.mem_singleton_self foot))
    rcases List.mem_append.1 isLast with earlier | same
    · have between := (List.pairwise_append.1 order.2).2.2 last earlier foot
        (List.mem_singleton_self foot)
      omega
    · rw [List.mem_singleton.1 same]
  exact ⟨Nat.le_trans earliest starts, Nat.le_trans stops latest⟩

theorem Covers.isWithin {text : List Char} (covers : span.Covers tokens)
    (order : Token.InOrder tokens) (given : ∀ token ∈ tokens, token.span.IsWithin text) :
    span.IsWithin text := by
  obtain ⟨first, last, isFirst, isLast, same⟩ := covers
  have member := List.mem_of_mem_head? isFirst
  have inside := Covers.inside ⟨first, last, isFirst, isLast, same⟩ order (.of_mem member)
  have ordered := Nat.le_trans inside.1 (Nat.le_trans (order.1 first member) inside.2)
  rw [same] at ordered ⊢
  exact ⟨ordered, (given first member).start, (given last (List.mem_of_mem_getLast? isLast)).stop⟩

theorem Covers.behind {word : Token} {part : List Token} (covers : span.Covers part)
    (isSuffix : part <:+ tokens) (order : Token.InOrder (word :: tokens)) :
    (word.span.merge span).Covers (word :: tokens) := by
  obtain ⟨middle, rfl⟩ := isSuffix
  exact (Covers.single word).merge middle covers order

end Span

/-- Nodes that stand among some tokens, one after the other. -/
structure Row (tokens : List Token) (nodes : List Node) : Prop where
  among : ∀ node ∈ nodes, node.span.Among tokens
  ordered : nodes.Pairwise fun earlier later => earlier.span.stop ≤ later.span.start

namespace Row

variable {tokens more low high : List Token} {nodes others : List Node} {node : Node}

theorem nil : Row tokens [] := ⟨List.forall_mem_nil _, .nil⟩

theorem single (among : node.span.Among tokens) : Row tokens [node] :=
  ⟨List.forall_mem_singleton.2 among, List.pairwise_singleton _ _⟩

theorem mono (row : Row tokens nodes) (part : tokens ⊆ more) : Row more nodes :=
  ⟨fun node member => (row.among node member).mono part, row.ordered⟩

theorem append (first : Row low nodes) (second : Row high others)
    (order : Token.InOrder (low ++ high)) : Row (low ++ high) (nodes ++ others) where
  among := List.forall_mem_append.2
    ⟨(first.mono (List.subset_append_left low high)).among,
      (second.mono (List.subset_append_right low high)).among⟩
  ordered := List.pairwise_append.2 ⟨first.ordered, second.ordered, fun earlier member later isLater =>
    (first.among earlier member).before (second.among later isLater) order⟩

theorem join {before : List Token} (first : Row low nodes) (second : Row high others)
    (isLow : low ⊆ before) (isHigh : high ⊆ more) (order : Token.InOrder (before ++ more)) :
    Row (before ++ more) (nodes ++ others) :=
  (first.mono isLow).append (second.mono isHigh) order

end Row

namespace Node

/-- The children of a node stand in it and apart from each other. Only the loop that a `for` is read to
stands around the clause before it, with the span of the whole. -/
structure Nests (tokens : List Token) (node : Node) : Prop where
  inside : ∀ child ∈ node.children, child.span.Inside node.span
  apart : (node.children.Pairwise fun child other => child.span.Apart other.span) ∨
    ∃ word ∈ tokens, word.kind = .keyword .forWord ∧ ∃ span first test body step,
      node = .block span [first, .loop span test body step] ∧
        span.start = word.span.start ∧ first.span.Inside span

theorem Nests.mono {tokens more : List Token} {node : Node} (nests : node.Nests tokens)
    (part : tokens ⊆ more) : node.Nests more where
  inside := nests.inside
  apart := nests.apart.imp_right fun ⟨word, member, isLoop⟩ => ⟨word, part member, isLoop⟩

/-- A node that nests, over the whole of a row of tokens. -/
structure Lies (tokens : List Token) (node : Node) : Prop extends Nests tokens node where
  covers : node.span.Covers tokens

theorem Lies.of_row {tokens : List Token} {node : Node} {nodes : List Node}
    (covers : node.span.Covers tokens) (order : Token.InOrder tokens) (row : Row tokens nodes)
    (same : nodes.Perm node.children) : node.Lies tokens where
  covers := covers
  inside child member := covers.inside order (row.among child (same.mem_iff.2 member))
  apart := .inl ((same.pairwise_iff Span.Apart.symm).1 (row.ordered.imp .inl))

end Node

/-! Expressions -/

namespace Groups

variable {tokens : List Token} {level : Nat} {node : Node} {nodes : List Node}

theorem row (groups : Groups tokens (.operand level node)) (order : Token.InOrder tokens) :
    Row tokens [node] :=
  .single (groups.covers order).among

theorem row_arguments (groups : Groups tokens (.arguments nodes)) (order : Token.InOrder tokens) :
    Row tokens nodes := by
  generalize same : Grouping.arguments nodes = grouping at groups
  induction groups generalizing nodes with
  | noArguments =>
    cases same
    exact .nil
  | lastArgument groups =>
    cases same
    exact groups.row order
  | @moreArguments comma low high _ _ first _ _ _ _ ih =>
    cases same
    have isHigh := List.sublist_cons_self comma high
    have here := first.row (order.of_sublist (List.sublist_append_left low _))
    have later := ih (order.of_sublist (isHigh.trans (List.sublist_append_right low _))) rfl
    exact here.join later (List.Subset.refl low) isHigh.subset order
  | _ => cases same

theorem row_children (groups : Groups tokens (.operand level node)) (order : Token.InOrder tokens) :
    Row tokens node.children := by
  generalize same : Grouping.operand level node = grouping at groups
  induction groups generalizing level node with
  | atom known =>
    cases same
    rw [(Parse.span_of_atom? known).2]
    exact .nil
  | @grouped _ opening closing tokens node _ _ _ ih =>
    cases same
    have inner : tokens.Sublist (opening :: (tokens ++ [closing])) :=
      (List.sublist_append_left tokens [closing]).trans (List.sublist_cons_self opening _)
    -- parentheses change the span of the node only
    rw [Node.children_withSpan]
    exact (ih (order.of_sublist inner) rfl).mono inner.subset
  | @signed _ sign tokens op operand _ _ groups _ =>
    cases same
    have inner := List.sublist_cons_self sign tokens
    exact (groups.row (order.of_sublist inner)).mono inner.subset
  | @joined _ _ between low high _ left right _ first _ second _ _ =>
    cases same
    have isHigh := List.sublist_cons_self between high
    have here := first.row (order.of_sublist (List.sublist_append_left low _))
    have later := second.row (order.of_sublist (isHigh.trans (List.sublist_append_right low _)))
    rw [Operator.children_join]
    exact here.join later (List.Subset.refl low) isHigh.subset order
  | @assigned equal low high _ _ _ _ _ value _ _ =>
    cases same
    have inner : high.Sublist (low ++ equal :: high) :=
      (List.sublist_cons_self equal high).trans (List.sublist_append_right low _)
    exact (value.row (order.of_sublist inner)).mono inner.subset
  | @called _ opening closing low inner _ _ _ first _ arguments _ _ _ =>
    cases same
    have isInner : inner.Sublist (opening :: (inner ++ [closing])) :=
      (List.sublist_append_left inner [closing]).trans (List.sublist_cons_self opening _)
    have here := first.row (order.of_sublist (List.sublist_append_left low _))
    have later := arguments.row_arguments
      (order.of_sublist (isInner.trans (List.sublist_append_right low _)))
    exact here.join later (List.Subset.refl low) isInner.subset order
  | noArguments | lastArgument | moreArguments => cases same

theorem lies (groups : Groups tokens (.operand level node)) (order : Token.InOrder tokens) :
    node.Lies tokens :=
  .of_row (groups.covers order) order (groups.row_children order) (.refl _)

end Groups

/-! Statements -/

/-- Where the nodes of a phrase are among its tokens. A statement can leave out its last semicolon. -/
def Phrase.Spans (tokens : List Token) : Phrase → Prop
  | .statement node => ∃ part, part <+: tokens ∧ node.Lies part
  | .block nodes span => Row tokens nodes ∧ span.Covers tokens
  | phrase => Row tokens phrase.nodes

theorem Node.Lies.row {tokens : List Token} {node : Node} (lies : node.Lies tokens) :
    Row tokens [node] :=
  .single lies.covers.among

/-- What begins with a word and ends with a statement lies over all of it but what the statement leaves
out. -/
theorem Phrase.Spans.clauses {word closing : Token} {before middle last high : List Token}
    {tests steps : List Node} {inner : Node} (node : Node)
    (order : Token.InOrder (word :: (before ++ (middle ++ (last ++ closing :: high)))))
    (first : Token.InOrder middle → Row middle tests) (second : Token.InOrder last → Row last steps)
    (third : Token.InOrder high → Phrase.Spans high (.statement inner))
    (span : node.span = word.span.merge inner.span)
    (same : (tests ++ (steps ++ [inner])).Perm node.children) :
    ∃ part rest, high = part ++ rest ∧
      node.Lies (word :: (before ++ (middle ++ (last ++ closing :: part)))) := by
  have isHigh : high <:+ word :: (before ++ (middle ++ (last ++ closing :: high))) :=
    ⟨word :: (before ++ (middle ++ (last ++ [closing]))), by simp⟩
  obtain ⟨part, ⟨rest, rfl⟩, lies⟩ := third (order.of_sublist isHigh.sublist)
  -- what the statement leaves out does not count from here on
  have isPrefix : word :: (before ++ (middle ++ (last ++ closing :: part))) <+:
      word :: (before ++ (middle ++ (last ++ closing :: (part ++ rest)))) := ⟨rest, by simp⟩
  have isPart : part <:+ before ++ (middle ++ (last ++ closing :: part)) :=
    ⟨before ++ (middle ++ (last ++ [closing])), by simp⟩
  replace order := order.of_sublist isPrefix.sublist
  have behind := order.of_sublist
    ((List.sublist_append_right before _).trans (List.sublist_cons_self word _))
  have ending := behind.of_sublist (List.sublist_append_right middle _)
  have ends := (second (ending.of_sublist (List.sublist_append_left last _))).join lies.row
    (List.Subset.refl last) (List.subset_cons_self closing part) ending
  have row := (first (behind.of_sublist (List.sublist_append_left middle _))).append ends behind
  have covers := lies.covers.behind isPart order
  rw [← span] at covers
  exact ⟨part, rest, rfl, .of_row covers order
    (row.mono (List.subset_cons_of_subset word (List.subset_append_right before _))) same⟩

theorem Phrase.Spans.loop {word closing : Token} {before middle last high : List Token}
    {test body : Node} {step : Option Node}
    (order : Token.InOrder (word :: (before ++ (middle ++ (last ++ closing :: high)))))
    (first : Token.InOrder middle → Phrase.Spans middle (.condition test))
    (second : Token.InOrder last → Phrase.Spans last (.optional step))
    (third : Token.InOrder high → Phrase.Spans high (.statement body)) :
    ∃ part rest, high = part ++ rest ∧
      Node.Lies (word :: (before ++ (middle ++ (last ++ closing :: part))))
        (.loop (word.span.merge body.span) test body step) :=
  clauses _ order first second third rfl
    (.cons test (List.perm_append_comm : (step.toList ++ [body]).Perm _))

/-- A block that stands for a `for` loop spans what the loop in it does. -/
theorem Node.Lies.forLoop {word : Token} {others first : List Token} {start : Option Node}
    {span : Span} {test body : Node} {step : Option Node}
    (isFor : word.kind = .keyword .forWord) (order : Token.InOrder (word :: others))
    (starts : Row first start.toList) (isFirst : first ⊆ word :: others)
    (loop : Lies (word :: others) (.loop span test body step)) :
    Lies (word :: others) (.block span (start.toList ++ [.loop span test body step])) := by
  have inside : ∀ child ∈ start.toList, child.span.Inside span := fun child member =>
    loop.covers.inside order ((starts.among child member).mono isFirst)
  refine ⟨⟨List.forall_mem_append.2 ⟨inside, List.forall_mem_singleton.2 ?_⟩, ?_⟩, loop.covers⟩
  · exact ⟨Nat.le_refl _, Nat.le_refl _⟩
  · cases start with
    | none => exact .inl (List.pairwise_singleton _ _)
    | some clause =>
      have within := inside clause (List.mem_singleton_self clause)
      obtain ⟨_, last, ⟨⟩, _, same⟩ := loop.covers
      have begins : span = ⟨word.span.start, last.span.stop⟩ := same
      exact .inr ⟨word, List.mem_cons_self, isFor, span, clause, test, body, step, rfl,
        by rw [begins], within⟩

theorem Phrase.Spans.whole {word : Token} {others part last : List Token} {node : Node}
    {span : Span} {nodes : List Node} (order : Token.InOrder (word :: others))
    (row : Row part nodes) (isPart : part ⊆ word :: others) (covers : span.Covers last)
    (isLast : last <:+ others) (same : node.span = word.span.merge span)
    (below : nodes = node.children) : Phrase.Spans (word :: others) (.statement node) := by
  have merged := covers.behind isLast order
  rw [← same] at merged
  exact ⟨_, List.prefix_rfl, .of_row merged order (row.mono isPart) (below ▸ .refl _)⟩

theorem Phrase.Spans.fork {word opening closing other : Token} {low middle high : List Token}
    {test thenBranch elseBranch : Node}
    (order : Token.InOrder (word :: opening :: (low ++ closing :: (middle ++ other :: high))))
    (first : Token.InOrder low → Phrase.Spans low (.expression test))
    (second : Token.InOrder middle → Phrase.Spans middle (.statement thenBranch))
    (third : Token.InOrder high → Phrase.Spans high (.statement elseBranch)) :
    Phrase.Spans (word :: opening :: (low ++ closing :: (middle ++ other :: high)))
      (.statement (.branch (word.span.merge elseBranch.span) test thenBranch (some elseBranch))) := by
  have order : Token.InOrder
      (word :: ([opening] ++ (low ++ ((closing :: middle) ++ other :: high)))) := order
  have thens (order : Token.InOrder (closing :: middle)) : Row (closing :: middle) [thenBranch] := by
    obtain ⟨part, isPart, lies⟩ := second (order.of_sublist (List.sublist_cons_self closing middle))
    exact lies.row.mono (List.subset_cons_of_subset closing isPart.subset)
  obtain ⟨part, rest, rfl, lies⟩ := clauses (.branch _ test thenBranch (some elseBranch))
    order first thens third rfl (.refl _)
  exact ⟨_, ⟨rest, by simp⟩, lies⟩

theorem Phrase.Spans.forLoop {word opening closing : Token} {first middle last high : List Token}
    {start step : Option Node} {test body : Node} (isFor : word.kind = .keyword .forWord)
    (order : Token.InOrder (word :: opening :: (first ++ (middle ++ (last ++ closing :: high)))))
    (starts : Token.InOrder first → Phrase.Spans first (.initializer start))
    (tests : Token.InOrder middle → Phrase.Spans middle (.condition test))
    (steps : Token.InOrder last → Phrase.Spans last (.optional step))
    (bodies : Token.InOrder high → Phrase.Spans high (.statement body)) :
    Phrase.Spans (word :: opening :: (first ++ (middle ++ (last ++ closing :: high))))
      (.statement (.block (word.span.merge body.span)
        (start.toList ++ [.loop (word.span.merge body.span) test body step]))) := by
  have loops : Token.InOrder
      (word :: ((opening :: first) ++ (middle ++ (last ++ closing :: high)))) := order
  obtain ⟨part, rest, rfl, lies⟩ := Phrase.Spans.loop loops tests steps bodies
  have isPrefix : word :: ((opening :: first) ++ (middle ++ (last ++ closing :: part))) <+:
      word :: opening :: (first ++ (middle ++ (last ++ closing :: (part ++ rest)))) :=
    ⟨rest, by simp⟩
  have isFirst : first <:+: word :: opening :: (first ++ (middle ++ (last ++ closing :: part))) :=
    ⟨[word, opening], middle ++ (last ++ closing :: part), rfl⟩
  have inner := order.of_sublist isPrefix.sublist
  have row := starts (inner.of_sublist isFirst.sublist)
  exact ⟨_, isPrefix, lies.forLoop isFor inner row isFirst.subset⟩

theorem Derives.spans {tokens : List Token} {phrase : Phrase} (derives : Derives tokens phrase)
    (order : Token.InOrder tokens) : phrase.Spans tokens := by
  induction derives with
  | expression groups => exact groups.row order
  | noNames | lastName | moreNames | absent | noInitializer | noStatements => exact .nil
  | present _ ih => exact ih order
  | @declared word name equal semicolon tokens _ value _ _ _ _ _ ih =>
    have isPart : tokens <:+: word :: name :: equal :: (tokens ++ [semicolon]) :=
      ⟨[word, name, equal], [semicolon], rfl⟩
    have row := ih (order.of_sublist isPart.sublist)
    exact .whole order row isPart.subset (.single semicolon) ⟨name :: equal :: tokens, rfl⟩ rfl rfl
  | @defined word name opening closing low high _ _ _ _ _ _ _ _ _ _ _ ih =>
    have isLast : high <:+ name :: opening :: (low ++ closing :: high) :=
      ⟨name :: opening :: (low ++ [closing]), by simp⟩
    have isPart := isLast.sublist.trans (List.sublist_cons_self word _)
    obtain ⟨row, covers⟩ := ih (order.of_sublist isPart)
    exact .whole order row isPart.subset covers isLast rfl rfl
  | enclosed _ ih =>
    obtain ⟨row, covers⟩ := ih order
    exact ⟨_, List.prefix_rfl, .of_row covers order row (.refl _)⟩
  -- nothing comes between the condition and the branch, where a `for` loop has its increment
  | @branched word opening closing low high test thenBranch _ _ _ _ _ ihTest ihThen =>
    have order : Token.InOrder (word :: ([opening] ++ (low ++ ([] ++ closing :: high)))) := order
    obtain ⟨part, rest, rfl, lies⟩ := Phrase.Spans.clauses (.branch _ test thenBranch none)
      order ihTest (fun _ => Row.nil) ihThen rfl (.refl _)
    exact ⟨_, ⟨rest, by simp⟩, lies⟩
  | forked _ _ _ _ _ _ _ ihTest ihThen ihElse => exact .fork order ihTest ihThen ihElse
  | @looped word opening closing low high _ _ _ _ _ _ _ ihTest ihBody =>
    have order : Token.InOrder (word :: ([opening] ++ (low ++ ([] ++ closing :: high)))) := order
    have noStep : Token.InOrder [] → Phrase.Spans [] (.optional none) := fun _ => Row.nil
    obtain ⟨part, rest, rfl, lies⟩ := Phrase.Spans.loop order ihTest noStep ihBody
    exact ⟨_, ⟨rest, by simp⟩, lies⟩
  | iterated isFor _ _ _ _ _ _ ihStart ihTest ihStep ihBody =>
    exact .forLoop isFor order ihStart ihTest ihStep ihBody
  | @returned word semicolon tokens _ _ _ _ ih =>
    have isPart : tokens <:+: word :: (tokens ++ [semicolon]) := ⟨[word], [semicolon], rfl⟩
    have row := ih (order.of_sublist isPart.sublist)
    exact .whole order row isPart.subset (.single semicolon) ⟨tokens, rfl⟩ rfl rfl
  | @broken word semicolon | @continued word semicolon =>
    have none : Row [] [] := .nil
    exact .whole order none (List.nil_subset _) (.single semicolon) List.suffix_rfl rfl rfl
  | @ended semicolon tokens _ found _ _ =>
    cases found with
    | expression groups =>
      have isPrefix : tokens <+: tokens ++ [semicolon] := List.prefix_append tokens [semicolon]
      exact ⟨tokens, isPrefix, groups.lies (order.of_sublist isPrefix.sublist)⟩
  | unended found =>
    cases found with
    | expression groups => exact ⟨_, List.prefix_rfl, groups.lies order⟩
  | declaredInitializer _ ih =>
    obtain ⟨part, isPart, lies⟩ := ih order
    exact lies.row.mono isPart.subset
  | @initializer semicolon tokens _ _ _ ih | @condition semicolon tokens _ _ _ ih =>
    have isPrefix : tokens <+: tokens ++ [semicolon] := List.prefix_append tokens [semicolon]
    have row := ih (order.of_sublist isPrefix.sublist)
    exact row.mono isPrefix.subset
  | @noCondition semicolon _ =>
    have forward := order.1 semicolon (List.mem_singleton_self semicolon)
    have isToken := List.mem_singleton_self semicolon
    exact .single ⟨semicolon, isToken, semicolon, isToken, Nat.le_refl _, forward⟩
  | @block opening closing tokens _ _ _ _ ih =>
    have isPart : tokens <:+: opening :: (tokens ++ [closing]) := ⟨[opening], [closing], rfl⟩
    have row := ih (order.of_sublist isPart.sublist)
    exact ⟨row.mono isPart.subset, (Span.Covers.single closing).behind ⟨tokens, rfl⟩ order⟩
  | @moreStatements low high _ _ _ _ ihFirst ihRest =>
    obtain ⟨part, isPart, lies⟩ := ihFirst (order.of_sublist (List.sublist_append_left low high))
    have rest := ihRest (order.of_sublist (List.sublist_append_right low high))
    exact (lies.row.mono isPart.subset).append rest order

/-! Programs -/

namespace Node

variable {root node : Node} {tokens : List Token}

/-- A node lies over some tokens in a row, or it is the condition that a loop does without. -/
theorem Stems.lies (stems : root.Stems tokens node) (order : Token.InOrder tokens) :
    (root.IsSupplied node ∧ ∃ semicolon ∈ tokens,
      semicolon.kind = .mark .semicolon ∧ node.span.start = semicolon.span.start) ∨
    ∃ part, part <:+: tokens ∧ node.Lies part := by
  cases stems with
  | supplied member isSemicolon within =>
    exact .inl ⟨⟨rfl, _, _, _, within⟩, _, member, isSemicolon, rfl⟩
  | operand isPart groups => exact .inr ⟨_, isPart, groups.lies (order.of_sublist isPart.sublist)⟩
  | statement isPart derives =>
    obtain ⟨part, isPrefix, lies⟩ := derives.spans (order.of_sublist isPart.sublist)
    exact .inr ⟨part, isPrefix.isInfix.trans isPart, lies⟩
  | @loop word closing before middle last high _ _ _ isPart test step body =>
    obtain ⟨part, rest, rfl, lies⟩ := Phrase.Spans.loop (order.of_sublist isPart.sublist) test.spans
      step.spans body.spans
    have isPrefix : word :: (before ++ (middle ++ (last ++ closing :: part))) <+:
        word :: (before ++ (middle ++ (last ++ closing :: (part ++ rest)))) := ⟨rest, by simp⟩
    exact .inr ⟨_, isPrefix.isInfix.trans isPart, lies⟩

theorem IsSupplied.nests (supplied : root.IsSupplied node) : node.Nests tokens := by
  rw [supplied.1]
  exact ⟨List.forall_mem_nil _, .inl .nil⟩

theorem Stems.isWithin {text : List Char} (stems : root.Stems tokens node)
    (order : Token.InOrder tokens) (given : ∀ token ∈ tokens, token.span.IsWithin text) :
    node.span.IsWithin text := by
  rcases stems.lies order with ⟨supplied, semicolon, member, _, starts⟩ | ⟨part, isPart, lies⟩
  · rw [supplied.1, starts]
    exact .of_point (given semicolon member).start
  · exact lies.covers.isWithin (order.of_sublist isPart.sublist)
      fun token member => given token (isPart.subset member)

theorem Lies.start_lt_stop (lies : node.Lies tokens) (order : Token.InOrder tokens)
    (nonempty : ∀ token ∈ tokens, token.span.start < token.span.stop) :
    node.span.start < node.span.stop := by
  obtain ⟨first, _, isFirst, _⟩ := lies.covers
  have member := List.mem_of_mem_head? isFirst
  have inside := lies.covers.inside order (.of_mem member)
  have forward := nonempty first member
  exact Nat.lt_of_le_of_lt inside.1 (Nat.lt_of_lt_of_le forward inside.2)

end Node

theorem Stream.allSpans_scan (source : List Char) :
    (Stream.scan 0 source).AllSpans (Span.IsWithin source) := by
  have start : 0 = byteWidth [] := rfl
  exact (Stream.cuts_scan 0 source).allSpans start

theorem Node.Contains.isWithin {source : List Char} {tree node : Node}
    (contains : tree.Contains node) (read : readProgram source = .ok tree) :
    node.span.IsWithin source := by
  obtain ⟨tokens, statements, cuts, rfl, _, stems⟩ := stems_of_readProgram read
  have spans := Stream.allSpans_scan source
  rw [← cuts.eq_scan, Stream.allSpans_after] at spans
  rcases stems node contains with rfl | stems
  · exact ⟨Nat.zero_le _, isPlace_zero source, isPlace_byteWidth source⟩
  · exact stems.isWithin cuts.inOrder spans.1

/-- The program spans its source. The nodes in it nest and span tokens in a row, but for the condition
that a `for` loop does without, which stands at a semicolon. -/
theorem readProgram_nests {source : List Char} {tree : Node} (read : readProgram source = .ok tree) :
    tree.span = ⟨0, byteWidth source⟩ ∧
    ∃ tokens, tokenize source = .ok (tokens ++ [Token.ending (byteWidth source)]) ∧
      ∀ node, tree.Contains node → node.span.IsWithin source ∧ node.Nests tokens ∧
        (node = tree ∨
          (tree.IsSupplied node ∧ ∃ semicolon ∈ tokens, semicolon.kind = .mark .semicolon ∧
            node.span.start = semicolon.span.start) ∨
          node.span.start < node.span.stop ∧ ∃ part, part <:+: tokens ∧ node.span.Covers part) := by
  obtain ⟨tokens, statements, cuts, rfl, derives, stems⟩ := stems_of_readProgram read
  have order := cuts.inOrder
  refine ⟨rfl, tokens, tokenize_of_scan cuts.eq_scan.symm, fun node contains => ?_⟩
  refine ⟨contains.isWithin read, ?_⟩
  rcases stems node contains with rfl | stems
  · have row : Row tokens statements := derives.spans order
    have inside : ∀ child ∈ statements, child.span.Inside ⟨0, byteWidth source⟩ := fun child member =>
      ⟨Nat.zero_le _, ((contains.child member).isWithin read).stop.le⟩
    exact ⟨⟨inside, .inl (row.ordered.imp .inl)⟩, .inl rfl⟩
  rcases stems.lies order with ⟨supplied, stands⟩ | ⟨part, isPart, lies⟩
  · exact ⟨supplied.nests, .inr (.inl ⟨supplied, stands⟩)⟩
  · have nonempty := lies.start_lt_stop (order.of_sublist isPart.sublist)
      fun token member => cuts.start_lt_stop token (isPart.subset member)
    exact ⟨lies.mono isPart.subset, .inr (.inr ⟨nonempty, part, isPart, lies.covers⟩)⟩

/-- In a `for` loop there can be a clause that the loop stands around, and no condition. -/
theorem readProgram_nests_forLoop :
    let source := "for (let a = b;;) \x7b\x7d".toList
    ∃ tree, readProgram source = .ok tree ∧ tree.span = ⟨0, 20⟩ ∧
      ∃ tokens, tokenize source = .ok (tokens ++ [Token.ending 20]) ∧
        ∀ node, tree.Contains node → node.span.IsWithin source ∧ node.Nests tokens ∧
          (node = tree ∨
            (tree.IsSupplied node ∧ ∃ semicolon ∈ tokens, semicolon.kind = .mark .semicolon ∧
              node.span.start = semicolon.span.start) ∨
            node.span.start < node.span.stop ∧
              ∃ part, part <:+: tokens ∧ node.span.Covers part) := by
  intro source
  have sound : (readProgram source).toOption.isSome = true := by decide +kernel
  cases read : readProgram source with
  | error error =>
    rw [read] at sound
    cases sound
  | ok tree => exact ⟨tree, rfl, readProgram_nests read⟩

end Scriptlet
