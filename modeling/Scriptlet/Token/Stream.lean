import Scriptlet.Token.Lexeme

/-! The tokens of a source in order, up to its end or to the first fault. -/

set_option autoImplicit false

namespace Scriptlet

/-- The space, the tabulator, the line feed and the carriage return. -/
def isSpace (c : Char) : Bool := c == ' ' || c == '\t' || c == '\n' || c == '\r'

mutual

/-- The blanks and comments that a text starts with, and the text after them. -/
def splitTrivia : List Char → List Char × List Char
  | [] => ([], [])
  | '/' :: '/' :: rest =>
    let (taken, after) := splitComment rest
    ('/' :: '/' :: taken, after)
  | c :: rest =>
    if isSpace c then
      let (taken, after) := splitTrivia rest
      (c :: taken, after)
    else
      ([], c :: rest)

/-- The rest of a comment, with the trivia after the line feed that ends it. -/
def splitComment : List Char → List Char × List Char
  | [] => ([], [])
  | c :: rest =>
    if c = '\n' then
      let (taken, after) := splitTrivia rest
      (c :: taken, after)
    else
      let (taken, after) := splitComment rest
      (c :: taken, after)

end

structure LexError where
  cause : LexCause
  span : Span
  deriving DecidableEq

def LexError.message (error : LexError) : String :=
  match error.cause with
  | .unexpectedCharacter c => s!"unexpected character '{c}' at {error.span.text}"
  | .unterminatedString => s!"unterminated string literal starting at {error.span.text}"
  | .unknownEscape c => s!"unknown escape sequence '\\{c}' at {error.span.text}"

/-- What is still to be read. After its end or a fault a stream is `exhausted`. -/
inductive Stream where
  | token (token : Token) (rest : Stream)
  | ending (offset : Nat)
  | fault (error : LexError)
  | exhausted
  deriving DecidableEq

theorem splitTrivia_append (source : List Char) :
    (splitTrivia source).1 ++ (splitTrivia source).2 = source := by
  apply splitTrivia.induct
    (motive_1 := fun source => (splitTrivia source).1 ++ (splitTrivia source).2 = source)
    (motive_2 := fun source => (splitComment source).1 ++ (splitComment source).2 = source)
  all_goals simp_all [splitTrivia, splitComment]

theorem length_after_lt {source rest tail after : List Char} {first : Char} {kind : Kind}
    (gap : (splitTrivia source).2 = first :: rest)
    (found : Lexeme.read first rest = .token kind tail after) :
    after.length < source.length := by
  have whole := congrArg List.length (splitTrivia_append source)
  have parts := congrArg List.length (Lexeme.tail_append_after found)
  simp only [List.length_append, gap, List.length_cons] at whole parts
  omega

namespace Stream

/-- The stream of a text that starts at a byte offset of its source. -/
def scan (offset : Nat) (source : List Char) : Stream :=
  let start := offset + byteWidth (splitTrivia source).1
  match _gap : (splitTrivia source).2 with
  | [] => ending start
  | first :: rest =>
    match _found : Lexeme.read first rest with
    | .token kind tail after =>
      let stop := start + byteWidth (first :: tail)
      token ⟨kind, String.ofList (first :: tail), ⟨start, stop⟩⟩ (scan stop after)
    | .fault cause tail => fault ⟨cause, ⟨start, start + byteWidth (first :: tail)⟩⟩
termination_by source.length
decreasing_by exact length_after_lt _gap _found

/-- All tokens that a reader gets, the ending one included. -/
def tokens : Stream → List Token
  | token head rest => head :: rest.tokens
  | ending offset => [Token.ending offset]
  | fault _ => []
  | exhausted => []

def error? : Stream → Option LexError
  | token _ rest => rest.error?
  | ending _ => none
  | fault error => some error
  | exhausted => none

def size : Stream → Nat
  | token _ rest => rest.size + 1
  | ending _ => 0
  | fault _ => 0
  | exhausted => 0

end Stream

/-- All tokens of a source, if it can be cut into tokens to its end. -/
def tokenize (source : List Char) : Except LexError (List Token) :=
  let stream := Stream.scan 0 source
  match stream.error? with
  | some error => .error error
  | none => .ok stream.tokens

end Scriptlet
