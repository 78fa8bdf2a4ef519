import Scriptlet.Machine.Session
import Scriptlet.Proofs.Grammar.Concatenation
import Scriptlet.Proofs.Token.Spelling

/-! A string as it is echoed is a literal of it. -/

set_option autoImplicit false

namespace Scriptlet

theorem Stream.scan_nil (offset : Nat) : scan offset [] = .ending offset :=
  (Cuts.ending .nil rfl).eq_scan.symm

theorem Stream.scan_quote (text : String) (after : List Char) :
    scan 0 (Quoted.quote text.toList ++ after) =
      .token ⟨.string text, String.ofList (Quoted.quote text.toList),
          ⟨0, byteWidth (Quoted.quote text.toList)⟩⟩
        (scan (byteWidth (Quoted.quote text.toList)) after) := by
  let tail := text.toList.flatMap Quoted.written ++ ['"']
  have begins : IsStart '"' (tail ++ after) := ⟨rfl, by simp⟩
  have start : 0 = 0 + byteWidth [] := rfl
  have stop : byteWidth ('"' :: tail) = 0 + byteWidth ('"' :: tail) := (Nat.zero_add _).symm
  have cuts : Cuts 0 ([] ++ '"' :: (tail ++ after)) _ :=
    .token .nil begins (Lexeme.read_quoted text after) start stop (cuts_scan (byteWidth ('"' :: tail)) after)
  exact cuts.eq_scan.symm

theorem readProgram_of_literal {source : List Char} {text lexeme : String} {span : Span} {stop : Nat}
    (scanned : Stream.scan 0 source = .token ⟨.string text, lexeme, span⟩ (.ending stop)) :
    readProgram source = .ok (.program ⟨0, stop⟩ [.string span text]) := by
  let reader : Reader := ⟨⟨.string text, lexeme, span⟩, .ending stop, 0⟩
  have started : Reader.start source = .ok reader := by rw [Reader.start, scanned]
  have read : Parse.sequence reader.fuel false reader =
      .done [.string span text] ⟨Token.ending stop, .exhausted, 0⟩ := rfl
  exact readProgram_of_done started read

theorem Evaluation.execute_literal (fuel : Nat) (whole span : Span) (text : String)
    (machine : Machine) :
    execute (fuel + 1) (.program whole [.string span text]) machine =
      .done (some (.string text)) machine := by
  simp only [execute, executeEach, evaluate]
  rfl

/-- A string as it is echoed is cut off as one token of that string, whatever follows. By itself it is
a program that returns the string on every machine. No two strings are echoed alike. -/
theorem echo_reads_back (text : String) :
    let echo := (Value.string text).echo
    let token : Token := ⟨.string text, echo, ⟨0, byteWidth echo.toList⟩⟩
    (∀ after, Stream.scan 0 (echo.toList ++ after) =
      .token token (Stream.scan (byteWidth echo.toList) after)) ∧
    tokenize echo.toList = .ok [token, Token.ending (byteWidth echo.toList)] ∧
    (∀ fuel machine, Machine.run (fuel + 1) echo.toList machine =
      .done (some (.string text)) machine) ∧
    ∀ other, (Value.string other).echo = echo ↔ other = text := by
  intro echo token
  have echoed : echo.toList = Quoted.quote text.toList := String.toList_ofList
  have scan (after : List Char) : Stream.scan 0 (echo.toList ++ after) =
      .token token (Stream.scan (byteWidth echo.toList) after) := by
    have scanned := Stream.scan_quote text after
    rwa [← echoed, String.ofList_toList] at scanned
  have whole : Stream.scan 0 echo.toList = .token token (.ending (byteWidth echo.toList)) := by
    have scanned := scan []
    rwa [List.append_nil, Stream.scan_nil] at scanned
  refine ⟨scan, ?_, fun fuel machine => ?_, fun other => ⟨fun same => ?_, fun same => same ▸ rfl⟩⟩
  · rw [tokenize, whole]
    rfl
  · rw [Machine.run, readProgram_of_literal whole]
    dsimp only
    rw [Evaluation.execute_literal]
    rfl
  · -- what two strings are echoed as is cut off as a token of each
    have quoted : Quoted.quote other.toList = echo.toList := by
      rw [← same]
      exact String.toList_ofList.symm
    have scanned := Stream.scan_quote other []
    rw [List.append_nil, quoted, whole] at scanned
    obtain ⟨first, _⟩ := Stream.token.inj scanned
    exact (Kind.string.inj (congrArg Token.kind first)).symm

end Scriptlet
