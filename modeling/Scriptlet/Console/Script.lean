import Scriptlet.Console.Arguments
import Scriptlet.Machine.Session
import Scriptlet.Token.Listing
import Scriptlet.Tree.Form

/-! The program that runs a script: from a file, from its command line or from its input. -/

set_option autoImplicit false

namespace Scriptlet.Script

inductive Origin where
  | inline (source : String)
  | file (path : String)
  | input
  deriving DecidableEq

inductive Task where
  | run | listTokens | showTree
  deriving DecidableEq

structure Options where
  origin : Origin
  limit : Nat
  task : Task
  deriving DecidableEq

def grammar : Arguments.Grammar :=
  ⟨["tokens", "ast"], ["eval", "max-depth"], [('e', "eval")]⟩

/-- A script has one origin, and a file a name. -/
def origin? (inline file : Option String) : Option Origin :=
  match inline, file with
  | some _, some _ => none
  | some source, none => some (.inline source)
  | none, some path => if path.isEmpty then none else some (.file path)
  | none, none => some .input

def task? (tokens tree : Bool) : Option Task :=
  match tokens, tree with
  | true, true => none
  | true, false => some .listTokens
  | false, true => some .showTree
  | false, false => some .run

def Options.read? (arguments : List String) : Option Options := do
  let items ← Arguments.read grammar arguments
  let inline ← Arguments.atMostOne? (Arguments.settings "eval" items)
  let file ← Arguments.atMostOne? (Arguments.operands items)
  let tokens ← Arguments.flag? "tokens" items
  let tree ← Arguments.flag? "ast" items
  let limit ← Arguments.numberOr? Machine.defaultLimit "max-depth" items
  let origin ← origin? inline file
  let task ← task? tokens tree
  pure ⟨origin, limit, task⟩

inductive Problem where
  | unreadable
  | stopped (name : String) (source : List Char) (failure : Failure)

def Problem.headline : Problem → String
  | unreadable => "Error: could not read input: No such file or directory (os error 2)"
  | stopped _ _ failure =>
    "Error: " ++ String.ofList (failure.describe.headline.toList.takeWhile (· != '\n'))

structure Reply where
  stdout : String
  problem : Option Problem

def Reply.status (reply : Reply) : Nat := if reply.problem.isSome then 1 else 0

def load (origin : Origin) (stdin : String) (file : String → Option String) :
    Option (String × String) :=
  match origin with
  | .inline source => some ("<eval>", source)
  | .file path => (file path).map fun text => (path, text)
  | .input => some ("<stdin>", stdin)

def listTokens (name : String) (source : List Char) : Reply :=
  let stream := Stream.scan 0 source
  let lines := stream.tokens.map fun token => token.listed ++ "\n"
  ⟨String.join lines, stream.error?.map fun error => .stopped name source (.lexical error)⟩

/-- Show the value of an inline script; other scripts print only what they ask for. -/
def echo (origin : Origin) (value : Option Value) : String :=
  match origin, value with
  | .inline _, some value => value.echo ++ "\n"
  | _, _ => ""

def execute (fuel : Nat) (clock : Clock) (options : Options) (name : String)
    (source : List Char) (program : Node) : Option Reply :=
  match Evaluation.execute fuel program (Machine.start options.limit .unlimited clock) with
  | .done value machine => some ⟨machine.host.sink.written ++ echo options.origin value, none⟩
  | .failed error machine =>
    some ⟨machine.host.sink.written, some (.stopped name source (.runtime error))⟩
  | .cutOff => none

/-- What the program does; nothing only if it was given too few steps. -/
def reply (fuel : Nat) (clock : Clock) (options : Options) (stdin : String)
    (file : String → Option String) : Option Reply :=
  match load options.origin stdin file with
  | none => some ⟨"", some .unreadable⟩
  | some (name, text) =>
    let source := text.toList
    match options.task with
    | .listTokens => some (listTokens name source)
    | task =>
      match readProgram source with
      | .error error => some ⟨"", some (.stopped name source (Failure.ofSyntaxError error))⟩
      | .ok program =>
        if task = .showTree then some ⟨program.form ++ "\n", none⟩
        else execute fuel clock options name source program

end Scriptlet.Script
