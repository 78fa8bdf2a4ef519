import Scriptlet.Number.Literal
import Scriptlet.Text.Quoted
import Scriptlet.Token.Basic

/-! The text of a single token: the longest one that a given text starts with. -/

set_option autoImplicit false

namespace Scriptlet

def isDigit (c : Char) : Bool := '0' ≤ c && c ≤ '9'

/-- Letters here are the ASCII ones, and the underscore counts as one. -/
def isLetter (c : Char) : Bool := ('a' ≤ c && c ≤ 'z') || ('A' ≤ c && c ≤ 'Z') || c == '_'

def isWordPart (c : Char) : Bool := isLetter c || isDigit c

inductive LexCause where
  | unexpectedCharacter (c : Char)
  | unterminatedString
  | unknownEscape (c : Char)
  deriving DecidableEq

/-- The rest of a string literal after its opening quote. `taken` is the text read, up to and with
the closing quote or the offending character, or all of it. -/
inductive StringBody where
  | closed (value taken after : List Char)
  | unknownEscape (c : Char) (taken : List Char)
  | unterminated (taken : List Char)
  deriving DecidableEq

namespace StringBody

def extend (c : Char) (text : List Char) : StringBody → StringBody
  | closed value taken after => closed (c :: value) (text ++ taken) after
  | unknownEscape bad taken => unknownEscape bad (text ++ taken)
  | unterminated taken => unterminated (text ++ taken)

def read : List Char → StringBody
  | [] => unterminated []
  | '"' :: after => closed [] ['"'] after
  | ['\\'] => unterminated ['\\']
  | '\\' :: mark :: rest =>
    match Quoted.escaped? mark with
    | some c => (read rest).extend c ['\\', mark]
    | none => unknownEscape mark ['\\', mark]
  | c :: rest => (read rest).extend c [c]

end StringBody

/-- What a text starts with. The first character is left out of `tail`, so a token is never empty. -/
inductive Lexeme where
  | token (kind : Kind) (tail after : List Char)
  | fault (cause : LexCause) (tail : List Char)
  deriving DecidableEq

namespace Lexeme

def readNumber (first : Char) (rest : List Char) : Lexeme :=
  let whole := rest.takeWhile isDigit
  match rest.dropWhile isDigit with
  | '.' :: more =>
    let fraction := more.takeWhile isDigit
    .token (.number (Number.ofDigits (first :: whole) fraction)) (whole ++ '.' :: fraction)
      (more.dropWhile isDigit)
  | after => .token (.number (Number.ofDigits (first :: whole) [])) whole after

def wordKind (word : String) : Kind :=
  match Keyword.ofSpelling? word with
  | some keyword => .keyword keyword
  | none => .identifier word

def readWord (first : Char) (rest : List Char) : Lexeme :=
  let tail := rest.takeWhile isWordPart
  .token (wordKind (String.ofList (first :: tail))) tail (rest.dropWhile isWordPart)

def readString (rest : List Char) : Lexeme :=
  match StringBody.read rest with
  | .closed value taken after => .token (.string (String.ofList value)) taken after
  | .unknownEscape c taken => .fault (.unknownEscape c) taken
  | .unterminated taken => .fault .unterminatedString taken

/-- The two-character mark if `second` follows, else what one character alone gives. -/
def readPair (second : Char) (long : Mark) (short : Lexeme) : List Char → Lexeme
  | [] => short
  | next :: after => if next = second then .token (.mark long) [next] after else short

def readMark (first : Char) (rest : List Char) : Lexeme :=
  let single (mark : Mark) : Lexeme := .token (.mark mark) [] rest
  let nothing : Lexeme := .fault (.unexpectedCharacter first) []
  match first with
  | '+' => single .plus
  | '-' => single .minus
  | '*' => single .star
  | '/' => single .slash
  | '%' => single .percent
  | '!' => readPair '=' .bangEqual (single .bang) rest
  | '=' => readPair '=' .equalEqual (single .equal) rest
  | '<' => readPair '=' .lessEqual (single .less) rest
  | '>' => readPair '=' .greaterEqual (single .greater) rest
  | '&' => readPair '&' .andAnd nothing rest
  | '|' => readPair '|' .orOr nothing rest
  | '(' => single .leftParen
  | ')' => single .rightParen
  | '\x7b' => single .leftBrace
  | '\x7d' => single .rightBrace
  | ',' => single .comma
  | ';' => single .semicolon
  | _ => nothing

def read (first : Char) (rest : List Char) : Lexeme :=
  if isDigit first then readNumber first rest
  else if isLetter first then readWord first rest
  else if first = '"' then readString rest
  else readMark first rest

end Lexeme

theorem StringBody.taken_append_after {rest value taken after : List Char}
    (closed : StringBody.read rest = .closed value taken after) : taken ++ after = rest := by
  fun_induction StringBody.read rest generalizing value taken after with
  | case1 => simp at closed
  | case2 =>
    simp only [StringBody.closed.injEq] at closed
    obtain ⟨_, rfl, rfl⟩ := closed
    rfl
  | case3 => simp at closed
  | case4 mark rest c _ ih =>
    cases body : StringBody.read rest <;> simp_all [StringBody.extend]
    obtain ⟨_, rfl, _⟩ := closed
    simp [ih]
  | case5 => simp at closed
  | case6 c rest _ _ _ ih =>
    cases body : StringBody.read rest <;> simp_all [StringBody.extend]
    obtain ⟨_, rfl, _⟩ := closed
    simp [ih]

theorem Lexeme.tail_append_after {first : Char} {rest tail after : List Char} {kind : Kind}
    (found : Lexeme.read first rest = .token kind tail after) : tail ++ after = rest := by
  unfold Lexeme.read at found
  split at found
  · unfold Lexeme.readNumber at found
    dsimp only at found
    split at found
    · next more point =>
      simp only [Lexeme.token.injEq] at found
      obtain ⟨_, rfl, rfl⟩ := found
      have whole := List.takeWhile_append_dropWhile (p := isDigit) (l := rest)
      rw [point] at whole
      simp [List.takeWhile_append_dropWhile, whole]
    · simp only [Lexeme.token.injEq] at found
      obtain ⟨_, rfl, rfl⟩ := found
      exact List.takeWhile_append_dropWhile
  · split at found
    · simp only [Lexeme.readWord, Lexeme.token.injEq] at found
      obtain ⟨_, rfl, rfl⟩ := found
      exact List.takeWhile_append_dropWhile
    · split at found
      · unfold Lexeme.readString at found
        split at found <;> simp at found
        next body =>
          obtain ⟨_, rfl, rfl⟩ := found
          exact StringBody.taken_append_after body
      -- every mark that another one continues is read by `readPair`
      · have pair : ∀ (second : Char) (long : Mark) (short : Lexeme),
            (∀ kind tail after, short = .token kind tail after → tail ++ after = rest) →
            Lexeme.readPair second long short rest = .token kind tail after →
            tail ++ after = rest := by
          intro second long short single paired
          cases rest with
          | nil => exact single _ _ _ paired
          | cons next more =>
            simp only [Lexeme.readPair] at paired
            split at paired
            · simp only [Lexeme.token.injEq] at paired
              obtain ⟨_, rfl, rfl⟩ := paired
              rfl
            · exact single _ _ _ paired
        unfold Lexeme.readMark at found
        split at found <;>
          first
          | (simp only [Lexeme.token.injEq] at found; obtain ⟨_, rfl, rfl⟩ := found; rfl)
          | exact pair _ _ _ (by simp) found
          | simp at found

end Scriptlet
