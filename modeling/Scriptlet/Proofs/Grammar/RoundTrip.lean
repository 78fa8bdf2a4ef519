import Scriptlet.Proofs.Grammar.Soundness
import Scriptlet.Proofs.Grammar.StatementReading
import Scriptlet.Proofs.Token.Spelling

/-! The trees that are read are the well-formed ones, and each is read from its own text. -/

set_option autoImplicit false

namespace Scriptlet

namespace WellFormed

/-! Written trees are rows of tokens that have texts -/

theorem hasText_enclosed {least : Nat} {node : Node} {kinds : List Kind}
    (texts : ∀ kind ∈ kinds, kind.HasText) : ∀ kind ∈ node.enclosed least kinds, kind.HasText := by
  unfold Node.enclosed
  split
  · rw [List.forall_mem_cons, List.forall_mem_append, List.forall_mem_singleton]
    exact ⟨.mark _, texts, .mark _⟩
  · exact texts

theorem hasText_argumentKinds {arguments : List Node}
    (texts : ∀ node ∈ arguments, ∀ kind ∈ node.expressionKinds, kind.HasText) :
    ∀ kind ∈ Node.argumentKinds arguments, kind.HasText := by
  induction arguments with
  | nil => simp [Node.argumentKinds]
  | cons first rest ih =>
    obtain ⟨textsFirst, textsRest⟩ := List.forall_mem_cons.mp texts
    cases rest with
    | nil => exact textsFirst
    | cons second rest =>
      rw [Node.argumentKinds, List.forall_mem_append, List.forall_mem_cons]
      exact ⟨textsFirst, .mark _, ih textsRest⟩

theorem hasText_parameterKinds {names : List String} (sound : ∀ name ∈ names, IsName name) :
    ∀ kind ∈ Node.parameterKinds names, kind.HasText := by
  induction names with
  | nil => simp [Node.parameterKinds]
  | cons first rest ih =>
    obtain ⟨soundFirst, soundRest⟩ := List.forall_mem_cons.mp sound
    cases rest with
    | nil => exact List.forall_mem_singleton.mpr (.identifier soundFirst)
    | cons second rest =>
      rw [Node.parameterKinds, List.forall_mem_cons, List.forall_mem_cons]
      exact ⟨.identifier soundFirst, .mark _, ih soundRest⟩

theorem Expression.hasText {node : Node} (sound : Expression node) :
    ∀ kind ∈ node.expressionKinds, kind.HasText := by
  induction sound with
  | number literal => exact List.forall_mem_singleton.mpr (.number literal)
  | string => exact List.forall_mem_singleton.mpr (.string _)
  | boolean => exact List.forall_mem_singleton.mpr (.keyword _)
  | nil => exact List.forall_mem_singleton.mpr (.keyword _)
  | reference name => exact List.forall_mem_singleton.mpr (.identifier name)
  | assign name _ ih =>
    rw [Node.expressionKinds, List.forall_mem_cons, List.forall_mem_cons]
    exact ⟨.identifier name, .mark _, ih⟩
  | unary _ ih =>
    rw [Node.expressionKinds, List.forall_mem_cons]
    exact ⟨.mark _, hasText_enclosed ih⟩
  | binary _ _ ihLeft ihRight =>
    rw [Node.expressionKinds, List.forall_mem_append, List.forall_mem_cons]
    exact ⟨hasText_enclosed ihLeft, .mark _, hasText_enclosed ihRight⟩
  | logical _ _ ihLeft ihRight =>
    rw [Node.expressionKinds, List.forall_mem_append, List.forall_mem_cons]
    exact ⟨hasText_enclosed ihLeft, .mark _, hasText_enclosed ihRight⟩
  | call _ _ ihCallee ihArguments =>
    rw [Node.expressionKinds, List.forall_mem_append, List.forall_mem_cons, List.forall_mem_append,
      List.forall_mem_singleton]
    exact ⟨hasText_enclosed ihCallee, .mark _, hasText_argumentKinds ihArguments, .mark _⟩

theorem hasText_sequenceKinds {statements : List Node}
    (texts : ∀ node ∈ statements, ∀ kind ∈ node.statementKinds, kind.HasText) :
    ∀ kind ∈ Node.sequenceKinds statements, kind.HasText := by
  induction statements with
  | nil => simp [Node.sequenceKinds]
  | cons first rest ih =>
    obtain ⟨textsFirst, textsRest⟩ := List.forall_mem_cons.mp texts
    rw [Node.sequenceKinds, List.forall_mem_append]
    exact ⟨textsFirst, ih textsRest⟩

theorem Initializer.hasText {node : Node} (sound : Initializer node) :
    ∀ kind ∈ node.statementKinds, kind.HasText := by
  cases sound with
  | expression sound =>
    rw [sound.statementKinds, List.forall_mem_append, List.forall_mem_singleton]
    exact ⟨sound.hasText, .mark _⟩
  | declare name value =>
    simp only [Node.statementKinds, List.forall_mem_cons, List.forall_mem_append]
    exact ⟨.keyword _, .identifier name, .mark _, value.hasText, .mark _, by simp⟩

theorem Statement.hasText {inLoop : Bool} {node : Node} (sound : Statement inLoop node) :
    ∀ kind ∈ node.statementKinds, kind.HasText := by
  induction sound with
  | expression sound => exact (Initializer.expression sound).hasText
  | declare name value => exact (Initializer.declare name value).hasText
  | function name names _ ih =>
    simp only [Node.statementKinds, List.forall_mem_cons, List.forall_mem_append]
    exact ⟨.keyword _, .identifier name, .mark _, hasText_parameterKinds names, .mark _, .mark _,
      hasText_sequenceKinds ih, .mark _, by simp⟩
  | block statements ih =>
    rw [statementKinds_block statements, List.forall_mem_cons, List.forall_mem_append,
      List.forall_mem_singleton]
    exact ⟨.mark _, hasText_sequenceKinds ih, .mark _⟩
  | ifThen condition _ ih =>
    simp only [Node.statementKinds, Node.elseKinds, List.append_nil, List.forall_mem_cons,
      List.forall_mem_append]
    exact ⟨.keyword _, .mark _, condition.hasText, .mark _, ih⟩
  | ifElse condition _ _ _ ihThen ihElse =>
    simp only [Node.statementKinds, Node.elseKinds, List.forall_mem_cons, List.forall_mem_append]
    exact ⟨.keyword _, .mark _, condition.hasText, .mark _, ihThen, .keyword _, ihElse⟩
  | whileLoop condition _ ih =>
    simp only [Node.statementKinds, List.forall_mem_cons, List.forall_mem_append]
    exact ⟨.keyword _, .mark _, condition.hasText, .mark _, ih⟩
  | forLoop first condition _ increment ih =>
    rename_i node _ _ _ _
    rw [statementKinds_forLoop]
    simp only [List.forall_mem_cons, List.forall_mem_append]
    refine ⟨.keyword _, .mark _, ?_, condition.hasText, .mark _, increment.hasText, .mark _, ih⟩
    cases node with
    | none => exact List.forall_mem_singleton.mpr (.mark _)
    | some node => exact (first node rfl).hasText
  | returning sound =>
    rename_i value
    rw [Node.statementKinds, List.forall_mem_cons, List.forall_mem_append,
      List.forall_mem_singleton]
    refine ⟨.keyword _, ?_, .mark _⟩
    cases value with
    | none => simp [Node.valueKinds]
    | some node => exact (sound node rfl).hasText
  | breaking =>
    rw [Node.statementKinds, List.forall_mem_cons, List.forall_mem_singleton]
    exact ⟨.keyword _, .mark _⟩
  | continuing =>
    rw [Node.statementKinds, List.forall_mem_cons, List.forall_mem_singleton]
    exact ⟨.keyword _, .mark _⟩

theorem Program.hasText {tree : Node} (sound : Program tree) :
    ∀ kind ∈ tree.statementKinds, kind.HasText := by
  cases sound with
  | program statements =>
    exact hasText_sequenceKinds fun node member => (statements node member).hasText

theorem Program.readProgram {tree : Node} (sound : Program tree) {source : List Char}
    {tokens : List Token} (cut : tokenize source = .ok tokens)
    (text : tokens.map Token.kind = tree.statementKinds ++ [.endOfInput]) :
    ∃ found, readProgram source = .ok found ∧ found.bare = tree.bare := by
  obtain ⟨reader, started, kinds⟩ := Reader.exists_start cut
  rw [text] at kinds
  obtain ⟨after, passes, ends⟩ :=
    Passes.exists_of_kinds (fun kind member => (sound.hasText kind member).2) kinds
  obtain ⟨found, done, same⟩ := sound.reads passes ends
  refine ⟨found, ?_, same⟩
  rw [Scriptlet.readProgram, started]
  exact congrArg Prod.fst ((Outcome.result_eq_ok_iff reader.program_ends).mpr done)

end WellFormed

/-- The trees of programs are the well-formed ones, up to their spans, and the text of each is one
that it is read from. -/
theorem wellFormed_iff_read_and_text_reads (tree : Node) :
    (WellFormed.Program tree ↔
      ∃ source found, readProgram source = .ok found ∧ found.bare = tree.bare) ∧
    (WellFormed.Program tree →
      (∃ source tokens, tokenize source = .ok tokens ∧
        tokens.map Token.kind = tree.statementKinds ++ [.endOfInput]) ∧
      ∀ source tokens, tokenize source = .ok tokens →
        tokens.map Token.kind = tree.statementKinds ++ [.endOfInput] →
          ∃ found, readProgram source = .ok found ∧ found.bare = tree.bare) := by
  have written (sound : WellFormed.Program tree) := exists_source_of_kinds sound.hasText
  refine ⟨⟨fun sound => ?_, ?_⟩, fun sound => ⟨written sound, fun source tokens cut text => ?_⟩⟩
  · obtain ⟨source, tokens, cut, text⟩ := written sound
    exact ⟨source, sound.readProgram cut text⟩
  · rintro ⟨source, found, read, same⟩
    exact (WellFormed.Program.of_readProgram read).of_bare_eq same.symm
  · exact sound.readProgram cut text

/-- The loop `for (; true; nil) break;`, a program without a name or a number. -/
def endlessLoop : Node :=
  let span := Span.point 0
  .program span [.block span
    [.loop span (.boolean span true) (.break span) (some (.nil span))]]

theorem endlessLoop_is_read :
    WellFormed.Program endlessLoop ∧ ∃ source tokens found, tokenize source = .ok tokens ∧
      tokens.map Token.kind = endlessLoop.statementKinds ++ [.endOfInput] ∧
      readProgram source = .ok found ∧ found.bare = endlessLoop.bare := by
  have sound : WellFormed.Program endlessLoop :=
    .program (List.forall_mem_singleton.mpr
      (.forLoop (show ∀ node ∈ none, WellFormed.Initializer node by simp) .boolean .breaking .nil))
  obtain ⟨⟨source, tokens, cut, text⟩, reads⟩ :=
    (wellFormed_iff_read_and_text_reads endlessLoop).2 sound
  obtain ⟨found, read, same⟩ := reads source tokens cut text
  exact ⟨sound, source, tokens, found, cut, text, read, same⟩

end Scriptlet
