import Scriptlet.Console.Script
import Scriptlet.Console.Shell
import Scriptlet.Failure.Report

/-! The command line. `repl` as the first argument starts a conversation, else a script is run. -/

set_option autoImplicit false

namespace Scriptlet.Main

/-- More steps than any run can take. -/
def fuel : Nat := 1000000000000000000

/-- Readings of a clock that was read once and ticks a microsecond for each further reading. -/
def clockFrom (nanoseconds : Nat) (count : Nat) : Float :=
  Float.ofNat nanoseconds / 1e9 + Float.ofNat count / 1e6

def refuse : IO UInt32 := do
  IO.eprintln "error: unexpected arguments"
  return 2

def readFile? (path : String) : IO (Option String) := do
  try
    let text ← IO.FS.readFile path
    return some text
  catch _ => return none

def tell (name : String) (source : List Char) (failure : Failure) : IO Unit :=
  IO.eprint (Report.render failure name source)

def runScript (options : Script.Options) : IO UInt32 := do
  let clock := clockFrom (← IO.monoNanosNow)
  let stdin ← if options.origin = .input then (← IO.getStdin).readToEnd else pure ""
  let file ←
    match options.origin with
    | .file path => readFile? path
    | _ => pure none
  match Script.reply fuel clock options stdin fun _ => file with
  | none => return 1
  | some reply =>
    IO.print reply.stdout
    match reply.problem with
    | some (.stopped name source failure) => tell name source failure
    | some .unreadable => IO.eprintln Script.Problem.unreadable.headline
    | none => pure ()
    return reply.status.toUInt32

def showState (state : Shell.State) : IO Shell.State := do
  let (output, notes, state) := state.flush
  IO.print output
  (← IO.getStdout).flush
  for note in notes do
    match note with
    | .stopped input failure => tell "repl" input failure
    | .unmatched _ => IO.eprint note.text
  return state

partial def converse (state : Shell.State) : IO UInt32 := do
  let state ← showState state
  match state.status with
  | some status => return status.toUInt32
  | none =>
    let line ← (← IO.getStdin).getLine
    if line.isEmpty then
      converse state.finish
    else
      match Shell.step fuel state line.toList with
      | some state => converse state
      | none => return 1

end Scriptlet.Main

def main (arguments : List String) : IO UInt32 := do
  match arguments with
  | "repl" :: rest =>
    match Scriptlet.Shell.Options.read? rest with
    | none => Scriptlet.Main.refuse
    | some options =>
      let clock := Scriptlet.Main.clockFrom (← IO.monoNanosNow)
      Scriptlet.Main.converse (Scriptlet.Shell.start clock options)
  | _ =>
    match Scriptlet.Script.Options.read? arguments with
    | none => Scriptlet.Main.refuse
    | some options => Scriptlet.Main.runScript options
