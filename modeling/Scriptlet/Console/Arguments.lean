import Scriptlet.Number.Literal
import Scriptlet.Token.Lexeme

/-! Command lines taken apart by the usual rules.

An option's value stands in the next argument or after an equals sign, and for a one-letter option
also right behind the letter. Nothing may be given twice, and `--` ends the options.
-/

set_option autoImplicit false

namespace Scriptlet.Arguments

inductive Item where
  | flag (name : String)
  | setting (name value : String)
  | operand (text : String)
  deriving DecidableEq

/-- The options that a program knows: flags, options with a value, and one-letter names of some of
the latter. -/
structure Grammar where
  flags : List String
  settings : List String
  letters : List (Char × String)

/-- Whether an argument is an option rather than a value; a dash alone is a value. -/
def isOption (argument : String) : Bool :=
  match argument.toList with
  | '-' :: _ :: _ => true
  | _ => false

def splitEqual (text : List Char) : String × Option String :=
  let name := String.ofList (text.takeWhile (· != '='))
  match text.dropWhile (· != '=') with
  | [] => (name, none)
  | _ :: value => (name, some (String.ofList value))

/-- An option without its value, which is then the next argument. -/
inductive Reading where
  | item (item : Item)
  | pending (name : String)
  | refused

def readLong (grammar : Grammar) (text : List Char) : Reading :=
  match splitEqual text with
  | (name, none) =>
    if grammar.flags.contains name then .item (.flag name)
    else if grammar.settings.contains name then .pending name
    else .refused
  | (name, some value) =>
    if grammar.settings.contains name then .item (.setting name value) else .refused

def readShort (grammar : Grammar) (letter : Char) (rest : List Char) : Reading :=
  match grammar.letters.lookup letter with
  | none => .refused
  | some name =>
    match rest with
    | [] => .pending name
    | '=' :: value => .item (.setting name (String.ofList value))
    | value => .item (.setting name (String.ofList value))

def readOption (grammar : Grammar) (argument : String) : Reading :=
  match argument.toList with
  | '-' :: '-' :: text => readLong grammar text
  | '-' :: letter :: rest => readShort grammar letter rest
  | _ => .refused

/-- All that a command line says, in order; nothing if it breaks a rule. -/
def read (grammar : Grammar) : List String → Option (List Item)
  | [] => some []
  | [argument] =>
    if argument = "--" then some []
    else if isOption argument then
      match readOption grammar argument with
      | .item item => some [item]
      | _ => none
    else some [.operand argument]
  | argument :: next :: rest =>
    if argument = "--" then some ((next :: rest).map .operand)
    else if isOption argument then
      match readOption grammar argument with
      | .item item => (read grammar (next :: rest)).map (item :: ·)
      | .pending name =>
        if isOption next then none
        else (read grammar rest).map (.setting name next :: ·)
      | .refused => none
    else (read grammar (next :: rest)).map (.operand argument :: ·)

def settings (name : String) (items : List Item) : List String :=
  items.filterMap fun item =>
    match item with
    | .setting given value => if given = name then some value else none
    | _ => none

def operands (items : List Item) : List String :=
  items.filterMap fun item =>
    match item with
    | .operand text => some text
    | _ => none

def atMostOne? {α : Type} : List α → Option (Option α)
  | [] => some none
  | [value] => some (some value)
  | _ => none

def flag? (name : String) (items : List Item) : Option Bool :=
  (atMostOne? (items.filter (· == .flag name))).map Option.isSome

/-- A number of 64 bits in decimal digits, which a plus sign may precede. -/
def number? (text : String) : Option Nat :=
  let digits :=
    match text.toList with
    | '+' :: rest => rest
    | rest => rest
  if digits.isEmpty || !digits.all isDigit then none
  else
    let value := Number.digitsValue digits
    if value < 18446744073709551616 then some value else none

/-- The number given for an option, or a default; failure with two of them or another text. -/
def numberOr? (default : Nat) (name : String) (items : List Item) : Option Nat :=
  match atMostOne? (settings name items) with
  | some none => some default
  | some (some text) => number? text
  | none => none

end Scriptlet.Arguments
