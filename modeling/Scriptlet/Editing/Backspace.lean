import Scriptlet.Text.Cluster
import Scriptlet.Text.Span

/-! Backspaces in a text that was typed: each takes back the cluster before it. -/

set_option autoImplicit false

namespace Scriptlet.Backspace

/-- A text without its last bytes, unless that would cut a character in two. The text is given, and
left, with its last character first. -/
def dropBytes? : Nat → List Char → Option (List Char)
  | 0, text => some text
  | _ + 1, [] => none
  | count + 1, c :: rest =>
    if c.utf8Size ≤ count + 1 then dropBytes? (count + 1 - c.utf8Size) rest else none

/-- What stands so far, its last character first, and how much each of its clusters takes up. One
byte holds such a width, so of a cluster of 256 bytes or more only the remainder is taken back. -/
structure Typed where
  text : List Char
  widths : List UInt8

def Typed.press (typed : Typed) (cluster : List Char) : Option Typed :=
  if cluster = ['\x08'] then
    match typed.widths with
    | [] => some typed
    | width :: widths => (dropBytes? width.toNat typed.text).map fun text => ⟨text, widths⟩
  else
    some ⟨cluster.reverse ++ typed.text, UInt8.ofNat (byteWidth cluster) :: typed.widths⟩

def settle? (text : List Char) : Option (List Char) :=
  if text.contains '\x08' then
    ((Cluster.split text).foldlM Typed.press ⟨[], []⟩).map fun typed => typed.text.reverse
  else
    some text

end Scriptlet.Backspace
