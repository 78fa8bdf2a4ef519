import Scriptlet.Text.ClusterClass

/-! Texts cut into clusters by the rules of Unicode for extended grapheme clusters.

Main statement: the clusters of a text are the text.
-/

set_option autoImplicit false

namespace Scriptlet.Cluster

/-- Controls stand alone, but for a line feed after a carriage return. -/
def standsAlone : ClusterClass → Bool
  | .carriageReturn | .lineFeed | .control => true
  | _ => false

/-- Marks that belong to what stands before them, whatever it is. -/
def isAttached : ClusterClass → Bool
  | .extender | .linker | .nonJoiner | .joiner | .spacingMark => true
  | _ => false

/-- The order of parts within a Hangul syllable. -/
def continuesSyllable : ClusterClass → ClusterClass → Bool
  | .leadingJamo, .leadingJamo | .leadingJamo, .vowelJamo => true
  | .leadingJamo, .openSyllable | .leadingJamo, .closedSyllable => true
  | .openSyllable, .vowelJamo | .openSyllable, .trailingJamo => true
  | .vowelJamo, .vowelJamo | .vowelJamo, .trailingJamo => true
  | .closedSyllable, .trailingJamo | .trailingJamo, .trailingJamo => true
  | _, _ => false

def extendsPictograph : ClusterClass → Bool
  | .extender | .linker | .nonJoiner => true
  | _ => false

/-- A joiner links two pictographs; the first one may have marks. -/
def linksPictograph : List ClusterClass → Bool
  | .joiner :: before => (before.dropWhile extendsPictograph).head? == some .pictograph
  | _ => false

/-- Letters of regions pair up from the left. -/
def awaitsRegion (before : List ClusterClass) : Bool :=
  (before.takeWhile (· == .regionLetter)).length % 2 == 1

def isConjunctMark : ClusterClass → Bool
  | .extender | .linker | .joiner => true
  | _ => false

/-- A consonant is linked to the next one by a linker among its marks. -/
def linksConsonant (before : List ClusterClass) : Bool :=
  (before.takeWhile isConjunctMark).contains .linker
    && (before.dropWhile isConjunctMark).head? == some .consonant

/-- Whether a character goes on with the cluster before it, whose classes come nearest first. -/
def joins (before : List ClusterClass) (next : ClusterClass) : Bool :=
  match before with
  | [] => false
  | last :: _ =>
    if last = .carriageReturn then next == .lineFeed
    else if standsAlone last || standsAlone next then false
    else isAttached next || last == .leadingMark || continuesSyllable last next
      || (next == .pictograph && linksPictograph before)
      || (next == .regionLetter && awaitsRegion before)
      || (next == .consonant && linksConsonant before)

/-- The clusters of a text of which one has been begun: its characters and their classes, the last
one first. -/
def splitFrom (begun : List Char) (classes : List ClusterClass) : List Char → List (List Char)
  | [] => [begun.reverse]
  | c :: rest =>
    let next := ClusterClass.ofChar c
    if joins classes next then splitFrom (c :: begun) (next :: classes) rest
    else begun.reverse :: splitFrom [c] [next] rest

def split : List Char → List (List Char)
  | [] => []
  | c :: rest => splitFrom [c] [ClusterClass.ofChar c] rest

theorem flatten_splitFrom (begun : List Char) (classes : List ClusterClass) (text : List Char) :
    (splitFrom begun classes text).flatten = begun.reverse ++ text := by
  induction text generalizing begun classes with
  | nil => simp [splitFrom]
  | cons c rest ih =>
    simp only [splitFrom]
    split
    · rw [ih]
      simp
    · rw [List.flatten_cons, ih]
      simp

theorem flatten_split (text : List Char) : (split text).flatten = text := by
  cases text with
  | nil => rfl
  | cons c rest => exact flatten_splitFrom [c] _ rest

end Scriptlet.Cluster
