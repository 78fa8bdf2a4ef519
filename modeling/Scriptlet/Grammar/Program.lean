import Scriptlet.Grammar.Progress

/-! Reading sources: the grammar's parts with as many steps as they can need. -/

set_option autoImplicit false

namespace Scriptlet

namespace Reader

/-- A number of steps that suffices to read whatever is left. -/
def fuel (reader : Reader) : Nat := 8 * reader.left + 7

theorem expression_ends (reader : Reader) : Parse.expression reader.fuel reader ≠ .cutOff :=
  (Parse.ends_expression (by unfold fuel; omega)).ne_cutOff

theorem statement_ends (reader : Reader) : Parse.statement reader.fuel reader ≠ .cutOff :=
  ((Parse.statementEnds reader.fuel).statement reader (by unfold fuel; omega)).ne_cutOff

theorem program_ends (reader : Reader) : Parse.wholeProgram reader.fuel reader ≠ .cutOff :=
  (Parse.ends_wholeProgram (Nat.le_refl reader.fuel)).ne_cutOff

/-- Read an expression; the reader that goes on is there after an error as well. -/
def expression (reader : Reader) : Except SyntaxError Node × Reader :=
  (Parse.expression reader.fuel reader).result reader.expression_ends

def statement (reader : Reader) : Except SyntaxError Node × Reader :=
  (Parse.statement reader.fuel reader).result reader.statement_ends

def program (reader : Reader) : Except SyntaxError Node × Reader :=
  (Parse.wholeProgram reader.fuel reader).result reader.program_ends

end Reader

/-- The program that a source is, or why it is none. -/
def readProgram (source : List Char) : Except SyntaxError Node :=
  match Reader.start source with
  | .error error => .error (.lexical error)
  | .ok reader => reader.program.1

end Scriptlet
