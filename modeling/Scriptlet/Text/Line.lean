import Scriptlet.Text.Span

/-! Lines of a source, as Unicode ends them. -/

set_option autoImplicit false

namespace Scriptlet

/-- A line with its number, counted from one, the offset at which it starts and its text, which
includes the characters that end it. -/
structure Line where
  number : Nat
  start : Nat
  text : List Char
  deriving DecidableEq

namespace Line

/-- The line feed, the vertical tabulator, the form feed, the carriage return, the next line, and
the separators of lines and of paragraphs. -/
def endsWith (c : Char) : Bool :=
  let code := c.toNat
  (0xA ≤ code && code ≤ 0xD) || code == 0x85 || code == 0x2028 || code == 0x2029

/-- Cut a text after each line; a carriage return and a line feed after it end one line. -/
def split : List Char → List (List Char)
  | [] => []
  | '\r' :: '\n' :: rest => ['\r', '\n'] :: split rest
  | c :: rest =>
    if endsWith c then [c] :: split rest
    else
      match split rest with
      | [] => [[c]]
      | line :: more => (c :: line) :: more

/-- The line that an offset falls on, of lines of which the first has this number and this start;
the end of a source falls on its last line. -/
def locate (offset number start : Nat) : List (List Char) → Line
  | [] => ⟨number, start, []⟩
  | line :: rest =>
    let next := start + byteWidth line
    if next ≤ offset && !rest.isEmpty then locate offset (number + 1) next rest
    else ⟨number, start, line⟩

theorem flatten_split (text : List Char) : (split text).flatten = text := by
  fun_induction split text with
  | case1 => rfl
  | case2 rest ih => simp [ih]
  | case3 c rest _ _ ih => simp [ih]
  | case4 c rest _ _ none ih => simp_all
  | case5 c rest _ _ line more found ih => simp_all

end Line

end Scriptlet
