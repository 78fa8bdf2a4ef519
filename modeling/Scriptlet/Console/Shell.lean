import Scriptlet.Console.Arguments
import Scriptlet.Editing.Backspace
import Scriptlet.Editing.Validation
import Scriptlet.Machine.Session
import Scriptlet.Text.Blank

/-! The interactive program: it reads inputs, runs each on the same machine and echoes its value. -/

set_option autoImplicit false

namespace Scriptlet.Shell

structure Options where
  limit : Nat
  viKeys : Bool
  deriving DecidableEq

def grammar : Arguments.Grammar := ⟨["vi"], ["max-depth"], []⟩

def Options.read? (arguments : List String) : Option Options := do
  let items ← Arguments.read grammar arguments
  let viKeys ← Arguments.flag? "vi" items
  let limit ← Arguments.numberOr? Machine.defaultLimit "max-depth" items
  if (Arguments.operands items).isEmpty then pure ⟨limit, viKeys⟩ else none

inductive Note where
  | stopped (input : List Char) (failure : Failure)
  | unmatched (offset : Nat)

def Note.text : Note → String
  | stopped _ failure =>
    "Error: " ++ String.ofList (failure.describe.headline.toList.takeWhile (· != '\n'))
  | unmatched offset => s!"  - Unmatched bracket at position {offset}"

/-- The lines of some notes. One on brackets ends without a line feed, so the next note goes on with
its line. -/
def noteLines : List Note → List String
  | [] => []
  | note :: rest =>
    match note, noteLines rest with
    | .unmatched _, line :: lines => (note.text ++ line) :: lines
    | _, lines => note.text :: lines

/-- A conversation: `pending` is the input read so far that is not yet ready, and `status` tells how
the conversation ended, if it has. -/
structure State where
  machine : Machine
  notes : List Note
  pending : List Char
  status : Option Nat

namespace State

def say (state : State) (text : String) : State := { state with machine := state.machine.say text }

def note (state : State) (note : Note) : State := { state with notes := state.notes ++ [note] }

/-- The end of the input ends the conversation, whatever is pending. -/
def finish (state : State) : State := { state.say "\nExiting.\n" with status := some 0 }

def flush (state : State) : String × List Note × State :=
  let host := state.machine.host
  let machine := { state.machine with host := { host with sink := { host.sink with written := "" } } }
  (host.sink.written, state.notes, { state with machine := machine, notes := [] })

end State

/-- The lines of a text, each with the line feed that ends it. -/
def lines : List Char → List (List Char)
  | [] => []
  | c :: rest =>
    if c = '\n' then [c] :: lines rest
    else
      match lines rest with
      | [] => [[c]]
      | line :: more => (c :: line) :: more

/-- A text without a line feed at its end and a carriage return before that, and these. -/
def splitLineEnd (text : List Char) : List Char × List Char :=
  match text.reverse with
  | '\n' :: '\r' :: rest => (rest.reverse, ['\r', '\n'])
  | '\n' :: rest => (rest.reverse, ['\n'])
  | _ => (text, [])

def isExit (input : List Char) : Bool := input.map Char.toLower == "exit".toList

/-- Run one input; a failure keeps the bindings made before it. -/
def runInput (fuel : Nat) (input : List Char) (state : State) : Option State :=
  match state.machine.run fuel input with
  | .done (some value) machine =>
    some (State.say { state with machine := machine } (value.echo ++ "\n"))
  | .done none machine => some { state with machine := machine }
  | .failed failure machine =>
    some (State.note { state with machine := machine } (.stopped input failure))
  | .cutOff => none

/-- Take a text as what is pending now. If it is ready, run it, blanks at its ends apart. -/
def accept (fuel : Nat) (state : State) (text ending : List Char) : Option State :=
  match validate text with
  | .unmatched offset => some (State.note { state with pending := text } (.unmatched offset))
  | .incomplete => some { state with pending := text ++ ending }
  | .valid =>
    let input := Blank.trim text
    let state := { state with pending := [] }
    if input.isEmpty then some state
    else if isExit input then some { state with status := some 0 }
    else runInput fuel input state

/-- Read one line and follow the backspaces in what is pending then. One that would cut a character in
two breaks the conversation off. -/
def step (fuel : Nat) (state : State) (line : List Char) : Option State :=
  let (typed, ending) := splitLineEnd (state.pending ++ line)
  match Backspace.settle? typed with
  | none => some { state with status := some 101 }
  | some text => accept fuel state text ending

def converse (fuel : Nat) (state : State) : List (List Char) → Option State
  | [] => some state.finish
  | line :: rest =>
    match step fuel state line with
    | none => none
    | some state => if state.status.isSome then some state else converse fuel state rest

def greeting : String :=
  "sprig REPL v0.1.0\nType 'exit' or press Ctrl-D to quit.\nNo previous history.\n"

def start (clock : Clock) (options : Options) : State :=
  ⟨(Machine.start options.limit .unlimited clock).say greeting, [], [], none⟩

structure Reply where
  status : Nat
  stdout : String
  notes : List Note

/-- The whole conversation over an input text; nothing only if a run was given too few steps. -/
def reply (fuel : Nat) (clock : Clock) (options : Options) (stdin : String) :
    Option Reply :=
  (converse fuel (start clock options) (lines stdin.toList)).map fun state =>
    ⟨state.status.getD 0, state.machine.host.sink.written, state.notes⟩

end Scriptlet.Shell
