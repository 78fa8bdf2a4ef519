import Scriptlet.Grammar.Program
import Scriptlet.Proofs.Number.Layout
import Scriptlet.Proofs.Tree.Contained
import Scriptlet.Proofs.Tree.NestedList
import Scriptlet.Proofs.Token.Spelling
import Scriptlet.Proofs.Tree.WellFormed
import Scriptlet.Tree.Form

/-! Forms tell trees apart: a tree can be read off its form, but for its spans. -/

set_option autoImplicit false

namespace Scriptlet

namespace Node

open NestedList

mutual

/-- The nested list of which the form of a tree is the text. -/
def nested : Node → NestedList
  | .number _ value => word (Number.text value)
  | .string _ text => .atom (Printable.quote text.toList)
  | .boolean _ value => word (if value then "true" else "false")
  | .nil _ => word "nil"
  | .reference _ name => word name
  | .assign _ name value => .list [word "=", word name, nested value]
  | .declare _ name value => .list [word "let", word name, nested value]
  | .unary _ op operand => .list [word op.symbol, nested operand]
  | .binary _ op left right => .list [word op.symbol, nested left, nested right]
  | .logical _ op left right => .list [word op.symbol, nested left, nested right]
  | .call _ callee arguments => .list (word "call" :: nested callee :: nestedEach arguments)
  | .function _ name parameters body =>
    .list (word "fn" :: word name :: .list (parameters.map word) :: nestedEach body)
  | .block _ statements => .list (word "block" :: nestedEach statements)
  | .branch _ condition thenBranch elseBranch =>
    .list (word "if" :: nested condition :: nested thenBranch :: nestedIfAny elseBranch)
  | .loop _ condition body increment =>
    .list (word "while" :: nested condition :: nested body :: nestedIfAny increment)
  | .return _ value => .list (word "return" :: nestedIfAny value)
  | .break _ => .list [word "break"]
  | .continue _ => .list [word "continue"]
  | .program _ statements => .list (word "program" :: nestedEach statements)

def nestedEach : List Node → List NestedList
  | [] => []
  | node :: rest => nested node :: nestedEach rest

def nestedIfAny : Option Node → List NestedList
  | none => []
  | some node => [nested node]

end

theorem nestedEach_eq_map (nodes : List Node) : nestedEach nodes = nodes.map nested := by
  induction nodes with
  | nil => rfl
  | cons node rest ih => rw [nestedEach, ih, List.map_cons]

/-! Texts -/

theorem textOfItems_words (names : List String) :
    textOfItems (names.map word) = [' '].intercalate (names.map String.toList) := by
  cases names with
  | nil => rfl
  | cons first rest =>
    rw [List.map_cons, List.map_cons, textOfItems]
    induction rest generalizing first with
    | nil => simp
    | cons second rest ih =>
      rw [List.map_cons, List.map_cons, textOfRest_cons, ih second]
      simp [List.intercalate]

mutual

theorem toList_form : ∀ node : Node, node.form.toList = node.nested.text
  | .number .. => rfl
  | .string .. => String.toList_ofList
  | .boolean .. => rfl
  | .nil _ => rfl
  | .reference .. => rfl
  | .assign _ _ value => by simp [form, nested, toList_form value]
  | .declare _ _ value => by simp [form, nested, toList_form value]
  | .unary _ _ operand => by simp [form, nested, toList_form operand]
  | .binary _ _ left right => by simp [form, nested, toList_form left, toList_form right]
  | .logical _ _ left right => by simp [form, nested, toList_form left, toList_form right]
  | .call _ callee arguments => by
    simp [form, nested, toList_form callee, toList_formEach arguments]
  | .function _ _ parameters body => by
    simp [form, nested, NestedList.text, textOfItems_words, toList_formEach body]
  | .block _ statements => by simp [form, nested, toList_formEach statements]
  | .branch _ condition thenBranch elseBranch => by
    simp [form, nested, toList_form condition, toList_form thenBranch, toList_formIfAny elseBranch]
  | .loop _ condition body increment => by
    simp [form, nested, toList_form condition, toList_form body, toList_formIfAny increment]
  | .return _ value => by simp [form, nested, toList_formIfAny value]
  | .break _ => by simp [form, nested]
  | .continue _ => by simp [form, nested]
  | .program _ statements => by simp [form, nested, toList_formEach statements]

theorem toList_formEach : ∀ nodes : List Node,
    (formEach nodes).toList = textOfRest (nestedEach nodes)
  | [] => rfl
  | node :: rest => by simp [formEach, nestedEach, toList_form node, toList_formEach rest]

theorem toList_formIfAny : ∀ node : Option Node,
    (formIfAny node).toList = textOfRest (nestedIfAny node)
  | none => rfl
  | some node => by simp [formIfAny, nestedIfAny, toList_form node]

end

/-! Forms that can be read -/

/-- The names of a node are words that are not reserved. -/
def HasNames : Node → Prop
  | .reference _ name => IsName name
  | .assign _ name _ => IsName name
  | .declare _ name _ => IsName name
  | .function _ name parameters _ => IsName name ∧ ∀ parameter ∈ parameters, IsName parameter
  | _ => True

def HasFinite : Node → Prop
  | .number _ value => Number.IsFinite value
  | _ => True

instance : DecidablePred HasFinite
  | .number _ value => inferInstanceAs (Decidable (Number.IsFinite value))
  | .string .. | .boolean .. | .nil .. | .reference .. | .assign .. | .declare .. | .unary ..
  | .binary .. | .logical .. | .call .. | .function .. | .block .. | .branch .. | .loop ..
  | .return .. | .break .. | .continue .. | .program .. => isTrue trivial

/-- All names within a tree are names, and all numbers are finite. -/
def IsLegible (tree : Node) : Prop := tree.All HasNames ∧ tree.All HasFinite

theorem IsLegible.child {tree : Node} (legible : tree.IsLegible) :
    ∀ child ∈ tree.children, child.IsLegible :=
  fun _ member => ⟨fun node contains => legible.1 node (.of_child member contains),
    fun node contains => legible.2 node (.of_child member contains)⟩

theorem isPlain_of_isWordPart {c : Char} (part : isWordPart c = true) : isPlain c = true := by
  by_contra notPlain
  simp only [isPlain, Bool.and_eq_true, decide_eq_true_eq, not_and_or, not_not] at notPlain
  rcases notPlain with ((rfl | rfl) | rfl) | rfl <;> cases part

theorem isPlain_of_isDigit {c : Char} (digit : c.isDigit = true) : isPlain c = true :=
  isPlain_of_isWordPart (by rw [isWordPart, show isDigit c = true from digit, Bool.or_true])

def isPlainRow (row : List Char) : Bool := !row.isEmpty && row.all isPlain

theorem isPlainRow_cons {first : Char} {rest : List Char} :
    isPlainRow (first :: rest) = true ↔
      isPlain first = true ∧ ∀ c ∈ rest, isPlain c = true := by
  simp [isPlainRow]

theorem readable_of_isPlainRow {text : String} (plain : isPlainRow text.toList = true) :
    (word text).Readable := by
  rw [word]
  cases row : text.toList with
  | nil =>
    rw [row] at plain
    cases plain
  | cons first rest =>
    rw [row] at plain
    exact .atom (.word (List.forall_mem_cons.mpr (isPlainRow_cons.mp plain)))

theorem readable_of_isName {name : String} (isName : IsName name) : (word name).Readable := by
  obtain ⟨first, rest, same, letter, parts, _⟩ := isName
  refine readable_of_isPlainRow ?_
  rw [same]
  refine isPlainRow_cons.mpr ⟨isPlain_of_isWordPart ?_, fun c member => ?_⟩
  · rw [isWordPart, letter, Bool.true_or]
  · exact isPlain_of_isWordPart (parts c member)

theorem readable_of_isFinite {value : Float} (finite : Number.IsFinite value) :
    (word (Number.text value)).Readable := by
  obtain ⟨first, rest, same, starts, others⟩ := Number.exists_text finite
  refine readable_of_isPlainRow ?_
  rw [same]
  refine isPlainRow_cons.mpr ⟨?_, fun c member => ?_⟩
  · rcases starts with digit | rfl
    · exact isPlain_of_isDigit digit
    · rfl
  · rcases others c member with digit | rfl
    · exact isPlain_of_isDigit digit
    · rfl

theorem readable_headed {head : String} {items : List NestedList}
    (plain : isPlainRow head.toList = true) (readable : ∀ item ∈ items, item.Readable) :
    (NestedList.list (word head :: items)).Readable :=
  .list (List.forall_mem_cons.mpr ⟨readable_of_isPlainRow plain, readable⟩)

theorem readable_nested {tree : Node} (legible : tree.IsLegible) : tree.nested.Readable := by
  induction tree using induction_on_children with
  | step tree ih =>
    have child {node : Node} (member : node ∈ tree.children) : node.nested.Readable :=
      ih node member (legible.child node member)
    have each {nodes : List Node} (inside : ∀ node ∈ nodes, node ∈ tree.children) :
        ∀ item ∈ nestedEach nodes, item.Readable := by
      rw [nestedEach_eq_map]
      exact List.forall_mem_map.mpr fun node member => child (inside node member)
    have names := legible.1 tree .self
    have finite := legible.2 tree .self
    cases tree with
    | number => exact readable_of_isFinite finite
    | string => exact .atom .quoted
    | boolean _ value => cases value <;> exact readable_of_isPlainRow (by decide)
    | nil => exact readable_of_isPlainRow (by decide)
    | reference => exact readable_of_isName names
    | assign | declare =>
      refine readable_headed (by decide) ?_
      simpa using ⟨readable_of_isName names, child List.mem_cons_self⟩
    | unary _ op =>
      refine readable_headed (by cases op <;> decide) ?_
      simpa using child List.mem_cons_self
    | binary _ op | logical _ op =>
      refine readable_headed (by cases op <;> decide) ?_
      simpa using ⟨child List.mem_cons_self, child (List.mem_cons_of_mem _ List.mem_cons_self)⟩
    | call =>
      refine readable_headed (by decide) ?_
      exact List.forall_mem_cons.mpr ⟨child List.mem_cons_self,
        each fun node member => List.mem_cons_of_mem _ member⟩
    | function =>
      refine readable_headed (by decide) ?_
      refine List.forall_mem_cons.mpr ⟨readable_of_isName names.1,
        List.forall_mem_cons.mpr ⟨.list ?_, each fun node member => member⟩⟩
      exact List.forall_mem_map.mpr fun name member => readable_of_isName (names.2 name member)
    | block | program =>
      exact readable_headed (by decide) (each fun node member => member)
    | branch _ _ _ last | loop _ _ _ last =>
      refine readable_headed (by decide) ?_
      cases last <;> simp_all [children, nestedIfAny]
    | «return» _ value =>
      refine readable_headed (by decide) ?_
      cases value <;> simp_all [children, nestedIfAny]
    | «break» | «continue» =>
      exact readable_headed (by decide) (by simp)

/-! What a form is a form of -/

/-- What kind of node has a form with such a word in front and so many items behind it. -/
def labelOfHead (head : String) (count : Nat) : String :=
  match head with
  | "=" => "Assign"
  | "let" => "Let"
  | "call" => "Call"
  | "fn" => "FunctionDef"
  | "block" => "Block"
  | "if" => "If"
  | "while" => "While"
  | "return" => "Return"
  | "break" => "Break"
  | "continue" => "Continue"
  | "program" => "Program"
  | "&&" => "Logical"
  | "||" => "Logical"
  | _ => if count = 1 then "Unary" else "Binary"

def labelOfAtom (text : List Char) : String :=
  if text.head?.any (· == '"') then "String"
  else if text.head?.any fun c => c.isDigit || c == '-' then "Number"
  else if text = "true".toList ∨ text = "false".toList then "Boolean"
  else if text = "nil".toList then "Nil"
  else "Identifier"

def labelOfNested : NestedList → String
  | .atom text => labelOfAtom text
  | .list (.atom head :: items) => labelOfHead (String.ofList head) items.length
  | .list _ => ""

theorem labelOfAtom_name {name : String} (isName : IsName name) :
    labelOfAtom name.toList = "Identifier" := by
  obtain ⟨first, rest, same, letter, _, unreserved⟩ := isName
  have noQuote : (first == '"') = false := beq_eq_false_iff_ne.mpr (by rintro rfl; cases letter)
  have noSign : (first == '-') = false := beq_eq_false_iff_ne.mpr (by rintro rfl; cases letter)
  have noDigit : first.isDigit = false := isDigit_eq_false_of_isLetter letter
  have other {reserved : String} (isReserved : (Keyword.ofSpelling? reserved).isSome = true) :
      name.toList ≠ reserved.toList := by
    intro equal
    rw [← String.toList_inj.mp equal, unreserved] at isReserved
    cases isReserved
  have noTrue := other (show (Keyword.ofSpelling? "true").isSome = true by decide)
  have noFalse := other (show (Keyword.ofSpelling? "false").isSome = true by decide)
  have noNil := other (show (Keyword.ofSpelling? "nil").isSome = true by decide)
  rw [labelOfAtom, if_neg (by simp [same, noQuote]), if_neg (by simp [same, noDigit, noSign]),
    if_neg (not_or.mpr ⟨noTrue, noFalse⟩), if_neg noNil]

theorem labelOfAtom_number {value : Float} (finite : Number.IsFinite value) :
    labelOfAtom (Number.text value).toList = "Number" := by
  obtain ⟨first, rest, same, starts, _⟩ := Number.exists_text finite
  have noQuote : (first == '"') = false := by
    rw [beq_eq_false_iff_ne]
    rintro rfl
    rcases starts with digit | sign
    · cases digit
    · cases sign
  have isStart : (first.isDigit || first == '-') = true := by simpa using starts
  rw [labelOfAtom, if_neg (by simp [same, noQuote]), if_pos (by rw [same]; exact isStart)]

theorem labelOfNested_nested {tree : Node} (legible : tree.IsLegible) :
    labelOfNested tree.nested = tree.label := by
  have names := legible.1 tree .self
  have finite := legible.2 tree .self
  cases tree with
  | number => exact labelOfAtom_number finite
  | reference => exact labelOfAtom_name names
  | boolean _ value => cases value <;> rfl
  | unary _ op | binary _ op | logical _ op => cases op <;> rfl
  | _ => rfl

theorem UnaryOp.symbol_inj {op other : UnaryOp} : op.symbol = other.symbol ↔ op = other := by
  cases op <;> cases other <;> decide

theorem BinaryOp.symbol_inj {op other : BinaryOp} : op.symbol = other.symbol ↔ op = other := by
  cases op <;> cases other <;> decide

theorem LogicalOp.symbol_inj {op other : LogicalOp} : op.symbol = other.symbol ↔ op = other := by
  cases op <;> cases other <;> decide

theorem word_inj {first second : String} : word first = word second ↔ first = second := by
  rw [word, word, NestedList.atom.injEq, String.toList_inj]

theorem words_inj {names others : List String} :
    names.map word = others.map word ↔ names = others :=
  List.map_inj_right fun _ _ => word_inj.mp

theorem mapSpansEach_eq_of_nested {change : Span → Span} {nodes others : List Node}
    (tells : ∀ node ∈ nodes, ∀ other ∈ others, node.nested = other.nested →
      node.mapSpans change = other.mapSpans change)
    (same : nestedEach nodes = nestedEach others) :
    mapSpansEach change nodes = mapSpansEach change others := by
  induction nodes generalizing others with
  | nil =>
    cases others with
    | nil => rfl
    | cons => cases same
  | cons node nodes ih =>
    cases others with
    | nil => cases same
    | cons other others =>
      obtain ⟨first, rest⟩ := List.cons.inj same
      rw [mapSpansEach, mapSpansEach, tells node List.mem_cons_self other List.mem_cons_self first,
        ih (fun node member other isOther => tells node (List.mem_cons_of_mem _ member) other
          (List.mem_cons_of_mem _ isOther)) rest]

theorem mapSpansIfAny_eq_of_nested {change : Span → Span} {node other : Option Node}
    (tells : ∀ found ∈ node, ∀ second ∈ other, found.nested = second.nested →
      found.mapSpans change = second.mapSpans change)
    (same : nestedIfAny node = nestedIfAny other) :
    mapSpansIfAny change node = mapSpansIfAny change other := by
  cases node with
  | none =>
    cases other with
    | none => rfl
    | some => cases same
  | some node =>
    cases other with
    | none => cases same
    | some other =>
      rw [mapSpansIfAny, mapSpansIfAny, tells node rfl other rfl (List.cons.inj same).1]

theorem bare_eq_of_nested {tree twin : Node} (legible : tree.IsLegible)
    (legibleTwin : twin.IsLegible) (same : tree.nested = twin.nested) : tree.bare = twin.bare := by
  induction tree using induction_on_children generalizing twin with
  | step tree ih =>
    have labels : tree.label = twin.label := by
      rw [← labelOfNested_nested legible, same, labelOfNested_nested legibleTwin]
    have finite := legible.2 tree .self
    have finiteTwin := legibleTwin.2 twin .self
    have tells : ∀ node ∈ tree.children, ∀ other ∈ twin.children, node.nested = other.nested →
        node.bare = other.bare :=
      fun node member other isOther =>
        ih node member (legible.child node member) (legibleTwin.child other isOther)
    clear ih legible legibleTwin
    have each {nodes others : List Node} (inside : ∀ node ∈ nodes, node ∈ tree.children)
        (insideTwin : ∀ other ∈ others, other ∈ twin.children)
        (same : nestedEach nodes = nestedEach others) :
        mapSpansEach (fun _ => Span.point 0) nodes = mapSpansEach (fun _ => Span.point 0) others :=
      mapSpansEach_eq_of_nested (fun node member other isOther =>
        tells node (inside node member) other (insideTwin other isOther)) same
    have ifAny {node other : Option Node} (inside : ∀ found ∈ node, found ∈ tree.children)
        (insideTwin : ∀ found ∈ other, found ∈ twin.children)
        (same : nestedIfAny node = nestedIfAny other) :
        mapSpansIfAny (fun _ => Span.point 0) node = mapSpansIfAny (fun _ => Span.point 0) other :=
      mapSpansIfAny_eq_of_nested (fun found member second isSecond =>
        tells found (inside found member) second (insideTwin second isSecond)) same
    -- of the kinds of nodes only one has the label, and nothing but its parts is left to compare
    cases tree <;> cases twin <;> simp only [label, String.reduceEq] at labels <;>
      simp only [nested, NestedList.list.injEq, List.cons.injEq, word_inj, words_inj,
        UnaryOp.symbol_inj, BinaryOp.symbol_inj, LogicalOp.symbol_inj, true_and, and_true] at same
    all_goals simp only [bare, mapSpans]
    case number => rw [Number.eq_of_text finite finiteTwin same]
    case string =>
      obtain ⟨texts, _⟩ := Printable.quote_inj (congrArg (· ++ []) (NestedList.atom.inj same))
      rw [String.toList_inj.mp texts]
    case boolean value _ other =>
      rw [show value = other by revert same; cases value <;> cases other <;> decide]
    case reference => rw [same]
    case assign | declare =>
      obtain ⟨rfl, values⟩ := same
      congr 1
      exact tells _ List.mem_cons_self _ List.mem_cons_self values
    case unary =>
      obtain ⟨rfl, operands⟩ := same
      congr 1
      exact tells _ List.mem_cons_self _ List.mem_cons_self operands
    case binary | logical =>
      obtain ⟨rfl, lefts, rights⟩ := same
      congr 1
      · exact tells _ List.mem_cons_self _ List.mem_cons_self lefts
      · exact tells _ (List.mem_cons_of_mem _ List.mem_cons_self) _
          (List.mem_cons_of_mem _ List.mem_cons_self) rights
    case call =>
      obtain ⟨callees, arguments⟩ := same
      congr 1
      · exact tells _ List.mem_cons_self _ List.mem_cons_self callees
      · exact each (fun _ => List.mem_cons_of_mem _) (fun _ => List.mem_cons_of_mem _) arguments
    case function =>
      obtain ⟨rfl, rfl, bodies⟩ := same
      congr 1
      exact each (fun _ member => member) (fun _ member => member) bodies
    case block | program =>
      congr 1
      exact each (fun _ member => member) (fun _ member => member) same
    case branch | loop =>
      obtain ⟨conditions, seconds, lasts⟩ := same
      congr 1
      · exact tells _ List.mem_cons_self _ List.mem_cons_self conditions
      · exact tells _ (List.mem_cons_of_mem _ List.mem_cons_self) _
          (List.mem_cons_of_mem _ List.mem_cons_self) seconds
      · exact ifAny (fun _ found => by simp [children, Option.mem_def.mp found])
          (fun _ found => by simp [children, Option.mem_def.mp found]) lasts
    case «return» =>
      congr 1
      exact ifAny (fun _ found => by simp [children, Option.mem_def.mp found])
        (fun _ found => by simp [children, Option.mem_def.mp found]) same

end Node

end Scriptlet
