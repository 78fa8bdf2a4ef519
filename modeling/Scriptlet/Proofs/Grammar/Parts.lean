import Scriptlet.Proofs.Grammar.Derivation

/-! Every node of a program comes from some of its tokens in a row. -/

set_option autoImplicit false

namespace Scriptlet

def Phrase.nodes : Phrase → List Node
  | .expression node => [node]
  | .names _ => []
  | .optional node => node.toList
  | .statement node => [node]
  | .initializer node => node.toList
  | .condition node => [node]
  | .block nodes _ => nodes
  | .statements nodes => nodes

/-- A phrase that is part of a tree; a condition is that of a loop. -/
def Phrase.Belongs (root : Node) : Phrase → Prop
  | .condition node => ∃ span body step, root.Contains (.loop span node body step)
  | phrase => ∀ node ∈ phrase.nodes, root.Contains node

namespace Node

/-- The condition that stands for one that a loop does not have. -/
def IsSupplied (root node : Node) : Prop :=
  node = .boolean (Span.point node.span.start) true ∧
    ∃ span body step, root.Contains (.loop span node body step)

/-- Where a node within a tree comes from. A `for` loop is a block, and the loop in it has no tokens of
its own. -/
inductive Stems (root : Node) (tokens : List Token) : Node → Prop where
  | supplied {semicolon : Token} {span : Span} {body : Node} {step : Option Node} :
    semicolon ∈ tokens → semicolon.kind = .mark .semicolon →
      root.Contains (.loop span (.boolean (Span.point semicolon.span.start) true) body step) →
      Stems root tokens (.boolean (Span.point semicolon.span.start) true)
  | operand {part : List Token} {node : Node} : part <:+: tokens →
    Groups part (.operand 0 node) → Stems root tokens node
  | statement {part : List Token} {node : Node} : part <:+: tokens →
    Derives part (.statement node) → Stems root tokens node
  | loop {word closing : Token} {before middle last high : List Token} {test body : Node}
    {step : Option Node} : word :: (before ++ (middle ++ (last ++ closing :: high))) <:+: tokens →
      Derives middle (.condition test) → Derives last (.optional step) →
      Derives high (.statement body) →
      Stems root tokens (.loop (word.span.merge body.span) test body step)

variable {root node : Node} {tokens more : List Token}

theorem Stems.among (stems : root.Stems tokens node) (inside : tokens <:+: more) :
    root.Stems more node := by
  cases stems with
  | supplied member isSemicolon within => exact .supplied (inside.subset member) isSemicolon within
  | operand isPart groups => exact .operand (isPart.trans inside) groups
  | statement isPart derives => exact .statement (isPart.trans inside) derives
  | loop isPart test step body => exact .loop (isPart.trans inside) test step body

theorem All.among (all : node.All (root.Stems tokens)) (inside : tokens <:+: more) :
    node.All (root.Stems more) :=
  all.imp fun _ stems => stems.among inside

theorem Contains.stems {outer : Node} {nodes : List Node} (within : root.Contains outer)
    (stems : (∀ node ∈ nodes, root.Contains node) → ∀ node ∈ nodes, node.All (root.Stems tokens))
    (below : ∀ node ∈ nodes, node ∈ outer.children) (inside : tokens <:+: more) :
    ∀ node ∈ nodes, node.All (root.Stems more) :=
  fun node member => (stems (fun node member => within.child (below node member)) node
    member).among inside

end Node

def Phrase.Stems (root : Node) (tokens : List Token) (phrase : Phrase) : Prop :=
  phrase.Belongs root → ∀ node ∈ phrase.nodes, node.All (root.Stems tokens)

section

variable {root : Node} {tokens low middle high : List Token}

theorem Derives.statement_stems {node : Node} (derives : Derives tokens (.statement node))
    (below : root.Contains node → ∀ child ∈ node.children, child.All (root.Stems tokens)) :
    (Phrase.statement node).Stems root tokens := fun belongs =>
  List.forall_mem_singleton.2
    (.intro (.statement List.infix_rfl derives) (below (List.forall_mem_singleton.1 belongs)))

theorem Derives.branch_stems {span : Span} {test thenBranch : Node}
    (derives : Derives tokens (.statement (.branch span test thenBranch none)))
    (isLow : low <:+: tokens) (isHigh : high <:+: tokens)
    (tests : (Phrase.expression test).Stems root low)
    (thens : (Phrase.statement thenBranch).Stems root high) :
    (Phrase.statement (.branch span test thenBranch none)).Stems root tokens :=
  derives.statement_stems fun within => List.forall_mem_append.2
    ⟨within.stems tests (by simp [Node.children, Phrase.nodes]) isLow,
      within.stems thens (by simp [Node.children, Phrase.nodes]) isHigh⟩

theorem Derives.fork_stems {span : Span} {test thenBranch elseBranch : Node}
    (derives : Derives tokens (.statement (.branch span test thenBranch (some elseBranch))))
    (isLow : low <:+: tokens) (isMiddle : middle <:+: tokens) (isHigh : high <:+: tokens)
    (tests : (Phrase.expression test).Stems root low)
    (thens : (Phrase.statement thenBranch).Stems root middle)
    (elses : (Phrase.statement elseBranch).Stems root high) :
    (Phrase.statement (.branch span test thenBranch (some elseBranch))).Stems root tokens := by
  refine derives.statement_stems fun within => ?_
  have fromTest := within.stems tests (by simp [Node.children, Phrase.nodes]) isLow
  have fromThen := within.stems thens (by simp [Node.children, Phrase.nodes]) isMiddle
  have fromElse := within.stems elses (by simp [Node.children, Phrase.nodes]) isHigh
  exact List.forall_mem_append.2 ⟨fromTest, List.forall_mem_append.2 ⟨fromThen, fromElse⟩⟩

theorem Derives.loop_stems {span : Span} {test body : Node}
    (derives : Derives tokens (.statement (.loop span test body none)))
    (isLow : low <:+: tokens) (isHigh : high <:+: tokens)
    (tests : (Phrase.expression test).Stems root low)
    (rounds : (Phrase.statement body).Stems root high) :
    (Phrase.statement (.loop span test body none)).Stems root tokens :=
  derives.statement_stems fun within => List.forall_mem_append.2
    ⟨within.stems tests (by simp [Node.children, Phrase.nodes]) isLow,
      within.stems rounds (by simp [Node.children, Phrase.nodes]) isHigh⟩

/-- Only the first clause is below the block, the rest is below the loop in it. -/
theorem Derives.forLoop_stems {word closing : Token} {before first last : List Token}
    {start step : Option Node} {test body : Node} {span : Span}
    (row : tokens = word :: (before ++ (middle ++ (last ++ closing :: high))))
    (same : span = word.span.merge body.span)
    (derives : Derives tokens (.statement (.block span (start.toList ++ [.loop span test body step]))))
    (condition : Derives middle (.condition test)) (increment : Derives last (.optional step))
    (rounds : Derives high (.statement body)) (isFirst : first <:+: tokens)
    (starts : (Phrase.initializer start).Stems root first)
    (tests : (Phrase.condition test).Stems root middle)
    (steps : (Phrase.optional step).Stems root last)
    (bodies : (Phrase.statement body).Stems root high) :
    (Phrase.statement (.block span (start.toList ++ [.loop span test body step]))).Stems root
      tokens := by
  refine derives.statement_stems fun within => ?_
  subst same
  -- the loop is a child of the block, though no phrase of its own derives it
  have inner : root.Contains (.loop (word.span.merge body.span) test body step) :=
    within.child (by simp [Node.children])
  have isMiddle : middle <:+: tokens := ⟨word :: before, last ++ closing :: high, by simp [row]⟩
  have isLast : last <:+: tokens := ⟨word :: (before ++ middle), closing :: high, by simp [row]⟩
  have isHigh : high <:+: tokens :=
    ⟨word :: (before ++ (middle ++ (last ++ [closing]))), [], by simp [row]⟩
  have fromStart := within.stems starts (fun _ => List.mem_append_left _) isFirst
  have fromTest := fun node member => (tests ⟨_, _, _, inner⟩ node member).among isMiddle
  have fromStep := inner.stems steps
    (fun _ member => List.mem_cons_of_mem _ (List.mem_cons_of_mem _ member)) isLast
  have fromBody := inner.stems bodies (by simp [Node.children, Phrase.nodes]) isHigh
  have below := List.forall_mem_append.2 ⟨fromTest, List.forall_mem_append.2 ⟨fromBody, fromStep⟩⟩
  have loop : Node.All (root.Stems tokens) (.loop (word.span.merge body.span) test body step) := by
    subst row
    exact .intro (.loop List.infix_rfl condition increment rounds) below
  exact List.forall_mem_append.2 ⟨fromStart, List.forall_mem_singleton.2 loop⟩

theorem Derives.sequence_stems {first : Node} {rest : List Node}
    (starts : (Phrase.statement first).Stems root low)
    (goesOn : (Phrase.statements rest).Stems root high) :
    (Phrase.statements (first :: rest)).Stems root (low ++ high) := by
  intro belongs
  obtain ⟨here, later⟩ := List.forall_mem_cons.1 belongs
  have fromFirst := starts (List.forall_mem_singleton.2 here)
  refine List.forall_mem_cons.2 ⟨?_, fun node member => ?_⟩
  · exact (List.forall_mem_singleton.1 fromFirst).among ⟨[], high, rfl⟩
  · exact (goesOn later node member).among ⟨low, [], by simp⟩

theorem Derives.stems {phrase : Phrase} (derives : Derives tokens phrase) :
    phrase.Stems root tokens := by
  induction derives with
  | expression groups =>
    intro _ node member inner contains
    obtain ⟨part, isPart, found⟩ := groups.exists_part member contains
    exact .operand isPart found
  | noNames | lastName | moreNames | absent | noInitializer | noStatements =>
    exact fun _ => List.forall_mem_nil _
  | present _ ih => exact ih
  | @declared word name equal semicolon _ _ _ isWord isName isEqual value isSemicolon ih =>
    exact statement_stems (.declared isWord isName isEqual value isSemicolon) fun within =>
      within.stems ih (fun _ => id) ⟨[word, name, equal], [semicolon], rfl⟩
  | @defined word name opening closing low _ _ _ _ _ isWord isName isOpening names isClosing body _
      ih =>
    exact statement_stems (.defined isWord isName isOpening names isClosing body) fun within =>
      within.stems ih (fun _ => id) ⟨word :: name :: opening :: (low ++ [closing]), [], by simp⟩
  | enclosed block ih =>
    exact statement_stems (.enclosed block) fun within =>
      within.stems ih (fun _ => id) List.infix_rfl
  | @branched word opening closing low high _ _ isWord isOpening test isClosing thenBranch ihTest
      ihThen =>
    exact branch_stems (.branched isWord isOpening test isClosing thenBranch)
      ⟨[word, opening], closing :: high, rfl⟩ ⟨word :: opening :: (low ++ [closing]), [], by simp⟩
      ihTest ihThen
  | @forked word opening closing other low middle high _ _ _ isWord isOpening test isClosing
      thenBranch isOther elseBranch ihTest ihThen ihElse =>
    exact fork_stems (.forked isWord isOpening test isClosing thenBranch isOther elseBranch)
      ⟨[word, opening], closing :: (middle ++ other :: high), rfl⟩
      ⟨word :: opening :: (low ++ [closing]), other :: high, by simp⟩
      ⟨word :: opening :: (low ++ closing :: (middle ++ [other])), [], by simp⟩
      ihTest ihThen ihElse
  | @looped word opening closing low high _ _ isWord isOpening test isClosing body ihTest ihBody =>
    exact loop_stems (.looped isWord isOpening test isClosing body)
      ⟨[word, opening], closing :: high, rfl⟩ ⟨word :: opening :: (low ++ [closing]), [], by simp⟩
      ihTest ihBody
  | @iterated word opening closing first middle last high start step test body isWord isOpening
      initial condition increment isClosing rounds ihStart ihTest ihStep ihBody =>
    have row : word :: opening :: (first ++ (middle ++ (last ++ closing :: high))) =
        word :: ((opening :: first) ++ (middle ++ (last ++ closing :: high))) := rfl
    exact forLoop_stems row rfl
      (.iterated isWord isOpening initial condition increment isClosing rounds) condition increment
      rounds ⟨[word, opening], middle ++ (last ++ closing :: high), rfl⟩ ihStart ihTest ihStep ihBody
  | @returned word semicolon _ _ isWord value isSemicolon ih =>
    exact statement_stems (.returned isWord value isSemicolon) fun within =>
      within.stems ih (fun _ => id) ⟨[word], [semicolon], rfl⟩
  | broken isWord isSemicolon =>
    exact statement_stems (.broken isWord isSemicolon) fun _ => List.forall_mem_nil _
  | continued isWord isSemicolon =>
    exact statement_stems (.continued isWord isSemicolon) fun _ => List.forall_mem_nil _
  | @ended semicolon _ _ _ _ ih =>
    exact fun belongs node member => (ih belongs node member).among ⟨[], [semicolon], rfl⟩
  | unended _ ih => exact ih
  | declaredInitializer _ ih => exact ih
  | @initializer semicolon _ _ _ _ ih =>
    exact fun belongs node member => (ih belongs node member).among ⟨[], [semicolon], rfl⟩
  -- the only node without tokens: it is put where the semicolon stands
  | noCondition isSemicolon =>
    rintro ⟨_, _, _, within⟩
    exact List.forall_mem_singleton.2
      (.intro (.supplied List.mem_cons_self isSemicolon within) (List.forall_mem_nil _))
  | @condition semicolon _ _ _ _ ih =>
    rintro ⟨_, _, _, within⟩ node member
    have below := within.child (List.mem_cons_self)
    exact (ih (List.forall_mem_singleton.2 below) node member).among ⟨[], [semicolon], rfl⟩
  | @block opening closing _ _ _ _ _ ih =>
    exact fun belongs node member => (ih belongs node member).among ⟨[opening], [closing], rfl⟩
  | moreStatements _ _ ihFirst ihRest => exact sequence_stems ihFirst ihRest

end

theorem stems_of_readProgram {source : List Char} {tree : Node}
    (read : readProgram source = .ok tree) :
    ∃ tokens statements,
      Stream.Cuts 0 source (Stream.after tokens (.ending (byteWidth source))) ∧
      tree = .program ⟨0, byteWidth source⟩ statements ∧ Derives tokens (.statements statements) ∧
      ∀ node, tree.Contains node → node = tree ∨ tree.Stems tokens node := by
  obtain ⟨tokens, offset, statements, scanned, rfl, derives⟩ := derives_of_readProgram read
  have cuts := Stream.cuts_scan 0 source
  rw [scanned] at cuts
  obtain rfl : offset = byteWidth source := cuts.stop_eq.trans (Nat.zero_add _)
  have belongs : Phrase.Belongs (.program ⟨0, byteWidth source⟩ statements)
      (.statements statements) := fun child member => .child .self member
  refine ⟨tokens, statements, cuts, rfl, derives, fun node contains => ?_⟩
  exact contains.cases_child.imp_right
    fun ⟨child, isChild, within⟩ => derives.stems belongs child isChild node within

end Scriptlet
