/-! Byte ranges of a source text.

Sources are lists of characters and offsets count UTF-8 bytes, so an offset inside a character
names no position of the text.
-/

set_option autoImplicit false

namespace Scriptlet

/-- Bytes from `start` up to, not including, `stop`. -/
structure Span where
  start : Nat
  stop : Nat
  deriving DecidableEq

def byteWidth : List Char → Nat
  | [] => 0
  | c :: rest => c.utf8Size + byteWidth rest

/-- The first `count` bytes of a text, if they end between two characters. -/
def takeBytes? : Nat → List Char → Option (List Char)
  | 0, _ => some []
  | _ + 1, [] => none
  | count + 1, c :: rest =>
    if c.utf8Size ≤ count + 1 then
      (takeBytes? (count + 1 - c.utf8Size) rest).map (c :: ·)
    else
      none

def dropBytes? : Nat → List Char → Option (List Char)
  | 0, text => some text
  | _ + 1, [] => none
  | count + 1, c :: rest =>
    if c.utf8Size ≤ count + 1 then dropBytes? (count + 1 - c.utf8Size) rest else none

def lastLine (text : List Char) : List Char :=
  (text.reverse.takeWhile (· ≠ '\n')).reverse

namespace Span

def point (offset : Nat) : Span := ⟨offset, offset⟩

def merge (a b : Span) : Span := ⟨min a.start b.start, max a.stop b.stop⟩

def shift (span : Span) (offset : Nat) : Span := ⟨span.start + offset, span.stop + offset⟩

def slice? (span : Span) (source : List Char) : Option (List Char) :=
  if span.start ≤ span.stop then
    (dropBytes? span.start source).bind (takeBytes? (span.stop - span.start))
  else
    none

/-- Line and column of the start of a span, both counted from one.

A start past the end or inside a character counts as the end of the source.
-/
def lineColumn (span : Span) (source : List Char) : Nat × Nat :=
  let before := (takeBytes? (min span.start (byteWidth source)) source).getD source
  (before.count '\n' + 1, (lastLine before).length + 1)

def text (span : Span) : String := s!"{span.start}..{span.stop}"

end Span

theorem byteWidth_append (a b : List Char) : byteWidth (a ++ b) = byteWidth a + byteWidth b := by
  induction a with
  | nil => simp [byteWidth]
  | cons c rest ih => simp [byteWidth, ih, Nat.add_assoc]

end Scriptlet
