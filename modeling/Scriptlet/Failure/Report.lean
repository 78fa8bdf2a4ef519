import Scriptlet.Failure.Basic
import Scriptlet.Text.Blank
import Scriptlet.Text.Line

/-! Reports: the line of a failure with a mark under its place and the label below.

The layout is for places within one line of plain characters.
-/

set_option autoImplicit false

namespace Scriptlet.Report

def spaces (count : Nat) : String := String.ofList (List.replicate count ' ')

def rule (count : Nat) : String := String.ofList (List.replicate count '─')

/-- The mark under `width` characters, with a stem at their middle. -/
def mark (width : Nat) : String :=
  let half := width / 2
  if width = 0 then "│ " else rule half ++ "┬" ++ rule (width - half - 1) ++ "  "

def shown (line : Line) : String :=
  String.ofList (line.text.reverse.dropWhile Blank.isBlank).reverse

def render (failure : Failure) (name : String) (source : List Char) : String :=
  let span := failure.span
  let line := Line.locate span.start 1 0 (Line.split source)
  let column := span.start - line.start
  let width := span.stop - span.start
  let number := toString line.number
  let gutter := spaces (number.length + 2)
  let description := failure.describe
  let lines := [
    s!"Error: {description.headline}",
    s!"{gutter}╭─[ {name}:{line.number}:{column + 1} ]",
    s!"{gutter}│",
    s!" {number} │ {shown line}",
    s!"{gutter}│ {spaces column}{mark width}",
    s!"{gutter}│ {spaces (column + width / 2)}╰{rule (width + 1 - width / 2)} {description.label}",
    s!"{rule (number.length + 2)}╯"]
  String.join (lines.map fun line => line ++ "\n")

end Scriptlet.Report
