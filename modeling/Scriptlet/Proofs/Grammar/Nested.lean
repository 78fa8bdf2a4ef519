import Scriptlet.Editing.Brackets
import Scriptlet.Proofs.Grammar.Derivation

/-! The brackets of what derives are nested: each is closed by one of its kind, and nothing between
the two is left open. -/

set_option autoImplicit false

namespace Scriptlet

namespace Kind

def opens? : Kind → Option Bracket
  | .mark .leftParen => some .paren
  | .mark .leftBrace => some .brace
  | _ => none

def closes? : Kind → Option Bracket
  | .mark .rightParen => some .paren
  | .mark .rightBrace => some .brace
  | _ => none

def IsPlain (kind : Kind) : Prop := kind.opens? = none ∧ kind.closes? = none

end Kind

inductive Nested : List Token → Prop where
  | nil : Nested []
  | plain {token : Token} {tokens : List Token} : token.kind.IsPlain → Nested tokens →
    Nested (token :: tokens)
  | enclosed {opening closing : Token} {inner tokens : List Token} {bracket : Bracket} :
    opening.kind.opens? = some bracket → closing.kind.closes? = some bracket → Nested inner →
      Nested tokens → Nested (opening :: (inner ++ closing :: tokens))

namespace Nested

theorem append {low high : List Token} (first : Nested low) (second : Nested high) :
    Nested (low ++ high) := by
  induction first with
  | nil => exact second
  | plain plain _ ih => exact .plain plain ih
  | enclosed opening closing inner _ _ ih =>
    rw [List.cons_append, List.append_assoc, List.cons_append]
    exact .enclosed opening closing inner ih

theorem cons {token : Token} {tokens : List Token} {kind : Kind} (same : token.kind = kind)
    (plain : kind.IsPlain) (nested : Nested tokens) : Nested (token :: tokens) :=
  .plain (same ▸ plain) nested

theorem single {token : Token} {kind : Kind} (same : token.kind = kind) (plain : kind.IsPlain) :
    Nested [token] := cons same plain .nil

theorem parens {opening closing : Token} {inner tokens : List Token}
    (left : opening.kind = .mark .leftParen) (right : closing.kind = .mark .rightParen)
    (nested : Nested inner) (after : Nested tokens) :
    Nested (opening :: (inner ++ closing :: tokens)) :=
  .enclosed (by rw [left]; rfl) (by rw [right]; rfl) nested after

theorem braces {opening closing : Token} {inner tokens : List Token}
    (left : opening.kind = .mark .leftBrace) (right : closing.kind = .mark .rightBrace)
    (nested : Nested inner) (after : Nested tokens) :
    Nested (opening :: (inner ++ closing :: tokens)) :=
  .enclosed (by rw [left]; rfl) (by rw [right]; rfl) nested after

end Nested

namespace Kind

theorem isPlain_of_atom? {token : Token} {node : Node} (known : Parse.atom? token = some node) :
    token.kind.IsPlain := by
  unfold Parse.atom? at known
  split at known
  case h_7 => cases known
  all_goals next same => rw [same]; exact ⟨rfl, rfl⟩

theorem isPlain_of_ofKind? {kind : Kind} {found : Nat × Operator}
    (known : Operator.ofKind? kind = some found) : kind.IsPlain := by
  unfold Operator.ofKind? at known
  split at known
  case h_14 => cases known
  all_goals exact ⟨rfl, rfl⟩

theorem isPlain_of_unary? {kind : Kind} {op : UnaryOp} (known : UnaryOp.ofKind? kind = some op) :
    kind.IsPlain := by
  unfold UnaryOp.ofKind? at known
  split at known
  case h_3 => cases known
  all_goals exact ⟨rfl, rfl⟩

end Kind

theorem Groups.nested {tokens : List Token} {grouping : Grouping} (groups : Groups tokens grouping) :
    Nested tokens := by
  induction groups with
  | atom known => exact .plain (Kind.isPlain_of_atom? known) .nil
  | grouped opening _ closing inner => exact .parens opening closing inner .nil
  | signed _ known _ operand => exact .plain (Kind.isPlain_of_unary? known) operand
  | joined _ _ known _ left right => exact left.append (.plain (Kind.isPlain_of_ofKind? known) right)
  | assigned _ equal _ target value => exact target.append (.cons equal ⟨rfl, rfl⟩ value)
  | called _ _ opening _ closing callee inner =>
    exact callee.append (.parens opening closing inner .nil)
  | noArguments => exact .nil
  | lastArgument _ node => exact node
  | moreArguments _ comma _ _ first rest => exact first.append (.cons comma ⟨rfl, rfl⟩ rest)

/-- Tokens from which something derives are nested. -/
theorem Derives.nested {tokens : List Token} {phrase : Phrase} (derives : Derives tokens phrase) :
    Nested tokens := by
  induction derives with
  | expression groups => exact groups.nested
  | noNames => exact .nil
  | lastName name => exact .single name ⟨rfl, rfl⟩
  | moreNames name comma _ _ rest => exact .cons name ⟨rfl, rfl⟩ (.cons comma ⟨rfl, rfl⟩ rest)
  | absent => exact .nil
  | present _ node => exact node
  | declared word name equal _ semicolon value =>
    exact .cons word ⟨rfl, rfl⟩ (.cons name ⟨rfl, rfl⟩ (.cons equal ⟨rfl, rfl⟩
      (value.append (.single semicolon ⟨rfl, rfl⟩))))
  | defined word name opening _ closing _ names body =>
    exact .cons word ⟨rfl, rfl⟩ (.cons name ⟨rfl, rfl⟩ (.parens opening closing names body))
  | enclosed _ block => exact block
  | branched word opening _ closing _ test thenBranch =>
    exact .cons word ⟨rfl, rfl⟩ (.parens opening closing test thenBranch)
  | forked word opening _ closing _ other _ test thenBranch elseBranch =>
    exact .cons word ⟨rfl, rfl⟩ (.parens opening closing test
      (thenBranch.append (.cons other ⟨rfl, rfl⟩ elseBranch)))
  | looped word opening _ closing _ test body =>
    exact .cons word ⟨rfl, rfl⟩ (.parens opening closing test body)
  -- all three clauses stand within the parentheses
  | iterated word opening _ _ _ closing _ start test step body =>
    have nested := Nested.parens opening closing (start.append (test.append step)) body
    simp only [List.append_assoc] at nested
    exact .cons word ⟨rfl, rfl⟩ nested
  | returned word _ semicolon value =>
    exact .cons word ⟨rfl, rfl⟩ (value.append (.single semicolon ⟨rfl, rfl⟩))
  | broken word semicolon => exact .cons word ⟨rfl, rfl⟩ (.single semicolon ⟨rfl, rfl⟩)
  | continued word semicolon => exact .cons word ⟨rfl, rfl⟩ (.single semicolon ⟨rfl, rfl⟩)
  | ended _ semicolon node => exact node.append (.single semicolon ⟨rfl, rfl⟩)
  | unended _ node => exact node
  | noInitializer semicolon => exact .single semicolon ⟨rfl, rfl⟩
  | declaredInitializer _ declaration => exact declaration
  | initializer _ semicolon node => exact node.append (.single semicolon ⟨rfl, rfl⟩)
  | noCondition semicolon => exact .single semicolon ⟨rfl, rfl⟩
  | condition _ semicolon node => exact node.append (.single semicolon ⟨rfl, rfl⟩)
  | block opening _ closing statements => exact .braces opening closing statements .nil
  | noStatements => exact .nil
  | moreStatements _ _ first rest => exact first.append rest

end Scriptlet
