import Scriptlet.Proofs.Token.Following
import Scriptlet.Text.Printable

/-! Quoted texts with every character visible: where one ends and what it quotes can be read off. -/

set_option autoImplicit false

namespace Scriptlet.Printable

/-! Digits of a code point -/

theorem digitChar_inj {m n : Nat} (small : m < 16) (smallOther : n < 16)
    (same : m.digitChar = n.digitChar) : m = n := by
  have all : ∀ m < 16, ∀ n < 16, Nat.digitChar m = Nat.digitChar n → m = n := by decide
  exact all m small n smallOther same

theorem digitChar_ne_brace {n : Nat} (small : n < 16) : n.digitChar ≠ '\x7d' := by
  have all : ∀ n < 16, Nat.digitChar n ≠ '\x7d' := by decide
  exact all n small

theorem brace_notMem_hex (n : Nat) : '\x7d' ∉ Nat.toDigits 16 n := by
  induction n using Nat.strongRecOn with
  | ind n ih =>
    rw [Nat.toDigits_eq_if (by decide)]
    split
    · next small => simp [(digitChar_ne_brace small).symm]
    · next large =>
      have last := digitChar_ne_brace (Nat.mod_lt n (show 0 < 16 by decide))
      simpa [last.symm] using ih (n / 16) (by omega)

theorem hex_inj {m n : Nat} (same : Nat.toDigits 16 m = Nat.toDigits 16 n) : m = n := by
  induction m using Nat.strongRecOn generalizing n with
  | ind m ih =>
    have unfolded (n : Nat) : Nat.toDigits 16 n =
        if n < 16 then [n.digitChar] else Nat.toDigits 16 (n / 16) ++ [(n % 16).digitChar] :=
      Nat.toDigits_eq_if (by decide)
    -- a single digit is not two of them
    have single (digit : Char) (more : Nat) (last : Char) :
        [digit] ≠ Nat.toDigits 16 more ++ [last] := by
      intro equal
      have none := (List.append_inj' (show [] ++ [digit] = _ from equal) rfl).1
      exact Nat.toDigits_ne_nil none.symm
    rw [unfolded m, unfolded n] at same
    split at same <;> split at same
    · next small smallOther => exact digitChar_inj small smallOther (List.cons.inj same).1
    · exact absurd same (single _ _ _)
    · exact absurd same.symm (single _ _ _)
    · next large largeOther =>
      obtain ⟨front, last⟩ := List.append_inj' same rfl
      have quotients := ih (m / 16) (by omega) front
      have remainders := digitChar_inj (Nat.mod_lt m (by decide)) (Nat.mod_lt n (by decide))
        (List.cons.inj last).1
      omega

/-! Visible characters -/

theorem append_cons_inj {mark : Char} {first second rest other : List Char}
    (noMark : mark ∉ first) (noMarkOther : mark ∉ second)
    (same : first ++ mark :: rest = second ++ mark :: other) : first = second ∧ rest = other := by
  have split {text : List Char} (noMark : mark ∉ text) (after : List Char) :
      (text ++ mark :: after).takeWhile (· != mark) = text ∧
        (text ++ mark :: after).dropWhile (· != mark) = mark :: after := by
    refine takeWhile_append_of_stops (fun c member => ?_) (by simp)
    exact bne_iff_ne.mpr fun isMark => noMark (isMark ▸ member)
  obtain ⟨taken, dropped⟩ := split noMark rest
  rw [same, (split noMarkOther other).1] at taken
  rw [same, (split noMarkOther other).2] at dropped
  exact ⟨taken.symm, (List.cons.inj dropped).2.symm⟩

/-- The characters that have an escape of their own, each with the letter of it. -/
def namedEscapes : List (Char × Char) :=
  [('\x00', '0'), ('\t', 't'), ('\r', 'r'), ('\n', 'n'), ('"', '"'), ('\\', '\\')]

inductive Shown (c : Char) : List Char → Prop where
  | named {letter : Char} : (c, letter) ∈ namedEscapes → Shown c ['\\', letter]
  | numbered : Shown c ('\\' :: 'u' :: '\x7b' :: (Nat.toDigits 16 c.toNat ++ ['\x7d']))
  | plain : c ≠ '"' → c ≠ '\\' → Shown c [c]

theorem shown_visible (c : Char) : Shown c (visible c) := by
  unfold visible
  split
  case h_7 noQuote noBackslash =>
    split
    · exact .numbered
    · exact .plain noQuote noBackslash
  all_goals exact .named (by decide)

theorem letter_ne_u {c letter : Char} (named : (c, letter) ∈ namedEscapes) : letter ≠ 'u' := by
  have all : ∀ entry ∈ namedEscapes, entry.2 ≠ 'u' := by decide
  exact all _ named

theorem eq_of_letter {c d letter : Char} (named : (c, letter) ∈ namedEscapes)
    (other : (d, letter) ∈ namedEscapes) : c = d := by
  have all : ∀ entry ∈ namedEscapes, ∀ other ∈ namedEscapes,
      entry.2 = other.2 → entry.1 = other.1 := by decide
  exact all _ named _ other rfl

theorem Shown.inj {c d : Char} {text other rest more : List Char} (shown : Shown c text)
    (shownOther : Shown d other) (same : text ++ rest = other ++ more) : c = d ∧ rest = more := by
  cases shown with
  | named escape =>
    cases shownOther with
    | named escapeOther =>
      simp only [List.cons_append, List.nil_append, List.cons.injEq, true_and] at same
      obtain ⟨rfl, rest⟩ := same
      exact ⟨eq_of_letter escape escapeOther, rest⟩
    | numbered =>
      simp only [List.cons_append, List.nil_append, List.cons.injEq, true_and] at same
      exact absurd same.1 (letter_ne_u escape)
    | plain _ noBackslash => exact absurd (List.cons.inj same).1.symm noBackslash
  | numbered =>
    cases shownOther with
    | named escapeOther =>
      simp only [List.cons_append, List.nil_append, List.cons.injEq, true_and] at same
      exact absurd same.1.symm (letter_ne_u escapeOther)
    | numbered =>
      simp only [List.cons_append, List.append_assoc, List.nil_append, List.cons.injEq,
        true_and] at same
      -- the digits end at the brace, which is no digit
      obtain ⟨digits, rest⟩ := append_cons_inj (brace_notMem_hex _) (brace_notMem_hex _) same
      exact ⟨Char.toNat_inj.mp (hex_inj digits), rest⟩
    | plain _ noBackslash => exact absurd (List.cons.inj same).1.symm noBackslash
  | plain _ noBackslash =>
    cases shownOther with
    | named => exact absurd (List.cons.inj same).1 noBackslash
    | numbered => exact absurd (List.cons.inj same).1 noBackslash
    | plain => exact List.cons.inj same

/-- No visible character starts with a quote, so the first quote closes. -/
theorem Shown.ne_quote {c : Char} {text rest more : List Char} (shown : Shown c text) :
    text ++ rest ≠ '"' :: more := by
  intro same
  cases shown with
  | named => cases (List.cons.inj same).1
  | numbered => cases (List.cons.inj same).1
  | plain noQuote => exact noQuote (List.cons.inj same).1

/-- A quoted text ends by itself, and no other text is quoted so. -/
theorem quote_inj {text other rest more : List Char}
    (same : quote text ++ rest = quote other ++ more) : text = other ∧ rest = more := by
  have inner : text.flatMap visible ++ '"' :: rest = other.flatMap visible ++ '"' :: more := by
    simpa only [quote, List.cons_append, List.append_assoc, List.nil_append, List.cons.injEq,
      true_and] using same
  clear same
  induction text generalizing other with
  | nil =>
    cases other with
    | nil => exact ⟨rfl, (List.cons.inj inner).2⟩
    | cons d other =>
      rw [List.flatMap_cons, List.append_assoc] at inner
      exact absurd inner.symm (shown_visible d).ne_quote
  | cons c text ih =>
    cases other with
    | nil =>
      rw [List.flatMap_cons, List.append_assoc] at inner
      exact absurd inner (shown_visible c).ne_quote
    | cons d other =>
      rw [List.flatMap_cons, List.flatMap_cons, List.append_assoc, List.append_assoc] at inner
      obtain ⟨rfl, tails⟩ := (shown_visible c).inj (shown_visible d) inner
      obtain ⟨rfl, rests⟩ := ih tails
      exact ⟨rfl, rests⟩

end Scriptlet.Printable
