import Mathlib.Tactic.FieldSimp
import Scriptlet.Number.Literal
import Scriptlet.Proofs.Number.Rounding
import Scriptlet.Proofs.Token.Following

/-! The text of a finite number is digits with at most one point among them, and no other number has
it.
-/

set_option autoImplicit false

namespace Scriptlet.Number

/-! Rows of digits -/

theorem digitsValue_eq (digits : List Char) : digitsValue digits = Nat.ofDigitChars 10 digits 0 :=
  Nat.ofDigitChars_eq_foldl.symm

theorem digitsValue_append (digits more : List Char) :
    digitsValue (digits ++ more) = digitsValue digits * 10 ^ more.length + digitsValue more := by
  rw [digitsValue_eq, digitsValue_eq, digitsValue_eq, Nat.ofDigitChars_append,
    Nat.ofDigitChars_eq_ofDigitChars_zero, Nat.mul_comm]

theorem digitsValue_replicate_zero (count : Nat) : digitsValue (List.replicate count '0') = 0 := by
  rw [digitsValue_eq, Nat.ofDigitChars_replicate_zero, Nat.mul_zero]

theorem digitsValue_toDigits (n : Nat) : digitsValue (Nat.toDigits 10 n) = n := by
  rw [digitsValue_eq, Nat.ofDigitChars_ten_toDigits]

theorem exists_stripZeros (fraction : List Char) :
    ∃ count, fraction = stripZeros fraction ++ List.replicate count '0' := by
  have zeros : fraction.reverse.takeWhile (· == '0') =
      List.replicate (fraction.reverse.takeWhile (· == '0')).length '0' := by
    refine List.eq_replicate_iff.mpr ⟨rfl, fun c member => ?_⟩
    exact beq_iff_eq.mp (List.all_eq_true.mp List.all_takeWhile c member)
  refine ⟨(fraction.reverse.takeWhile (· == '0')).length, ?_⟩
  calc fraction
      = (fraction.reverse.takeWhile (· == '0') ++
          fraction.reverse.dropWhile (· == '0')).reverse := by
        rw [List.takeWhile_append_dropWhile, List.reverse_reverse]
    _ = stripZeros fraction ++ (fraction.reverse.takeWhile (· == '0')).reverse :=
        List.reverse_append
    _ = _ := by rw [zeros, List.reverse_replicate, List.length_replicate]

namespace Positional

def value (parts : Positional) : ℚ :=
  digitsValue parts.whole + digitsValue parts.fraction / 10 ^ parts.fraction.length

theorem value_stripZeros (whole fraction : List Char) :
    value ⟨whole, stripZeros fraction⟩ = value ⟨whole, fraction⟩ := by
  obtain ⟨count, split⟩ := exists_stripZeros fraction
  generalize stripZeros fraction = kept at split ⊢
  have zeros : (10 : ℚ) ^ count ≠ 0 := by positivity
  rw [split, value, value]
  simp only [digitsValue_append, digitsValue_replicate_zero, List.length_append,
    List.length_replicate]
  push_cast
  rw [add_zero, pow_add, mul_div_mul_right _ _ zeros]

theorem value_eq (whole fraction : List Char) :
    value ⟨whole, fraction⟩ = digitsValue (whole ++ fraction) / 10 ^ fraction.length := by
  have tens : (10 : ℚ) ^ fraction.length ≠ 0 := by positivity
  rw [value, digitsValue_append]
  push_cast
  rw [add_div, mul_div_cancel_right₀ _ tens]

end Positional

theorem Decimal.value_positional (decimal : Decimal) :
    decimal.positional.value = decimal.value := by
  have digits := digitsValue_toDigits decimal.digits
  unfold positional
  generalize Nat.toDigits 10 decimal.digits = row at digits
  dsimp only
  split
  · next whole =>
    obtain ⟨places, same⟩ := Int.eq_ofNat_of_zero_le whole
    rw [Decimal.value, same, Positional.value_eq, List.append_nil, digitsValue_append, digits]
    simp [digitsValue_replicate_zero]
  · next below =>
    have places : decimal.place = -((-decimal.place).toNat : Int) := by omega
    generalize (-decimal.place).toNat = count at places
    rw [Decimal.value, places, zpow_neg, zpow_natCast, ← div_eq_mul_inv]
    split
    · next within =>
      rw [Positional.value_stripZeros, Positional.value_eq, List.take_append_drop, digits,
        List.length_drop, Nat.sub_sub_self within.le]
    · next beyond =>
      have zeros := digitsValue_replicate_zero (1 + (count - row.length))
      rw [List.replicate_add] at zeros
      rw [Positional.value_stripZeros, Positional.value_eq, ← List.append_assoc,
        digitsValue_append, show ['0'] = List.replicate 1 '0' from rfl, zeros, digits,
        List.length_append, List.length_replicate, Nat.sub_add_cancel (Nat.le_of_not_lt beyond),
        Nat.zero_mul, Nat.zero_add]

/-- Digits before the point, at least one, and digits after it. -/
structure Positional.IsDigits (parts : Positional) : Prop where
  nonempty : parts.whole ≠ []
  whole : ∀ c ∈ parts.whole, c.isDigit = true
  fraction : ∀ c ∈ parts.fraction, c.isDigit = true

theorem Decimal.isDigits_positional (decimal : Decimal) : decimal.positional.IsDigits := by
  have nonempty : Nat.toDigits 10 decimal.digits ≠ [] := Nat.toDigits_ne_nil
  have digits : ∀ c ∈ Nat.toDigits 10 decimal.digits, c.isDigit = true :=
    fun c => Nat.isDigit_of_mem_toDigits (by decide) (by decide)
  have zeros (count : Nat) : ∀ c ∈ List.replicate count '0', c.isDigit = true := by
    intro c member
    rw [List.eq_of_mem_replicate member]
    rfl
  have stripped {fraction : List Char} (digits : ∀ c ∈ fraction, c.isDigit = true) :
      ∀ c ∈ stripZeros fraction, c.isDigit = true := by
    obtain ⟨count, split⟩ := exists_stripZeros fraction
    intro c member
    exact digits c (split ▸ List.mem_append_left _ member)
  unfold positional
  generalize Nat.toDigits 10 decimal.digits = row at nonempty digits
  dsimp only
  split
  · exact ⟨by simp [nonempty], List.forall_mem_append.mpr ⟨digits, zeros _⟩, by simp⟩
  · split
    · next within =>
      refine ⟨?_, fun c member => digits c (List.mem_of_mem_take member), ?_⟩
      · rw [ne_eq, List.take_eq_nil_iff]
        simp [nonempty]
        omega
      · exact stripped fun c member => digits c (List.mem_of_mem_drop member)
    · refine ⟨by simp, by simp, stripped ?_⟩
      exact List.forall_mem_append.mpr ⟨zeros _, digits⟩

/-! Texts -/

namespace Positional

def rest (parts : Positional) : List Char :=
  if parts.fraction.isEmpty then [] else '.' :: parts.fraction

def text (parts : Positional) : List Char := parts.whole ++ parts.rest

/-- A text of digits and a point is read in one way. -/
theorem eq_of_text {parts other : Positional} (digits : parts.IsDigits)
    (digitsOther : other.IsDigits) (same : parts.text = other.text) : parts = other := by
  have stops (parts : Positional) : ∀ c ∈ parts.rest.head?, c.isDigit = false := by
    unfold rest
    split
    · simp
    · rintro _ ⟨⟩
      rfl
  obtain ⟨whole, rest⟩ := takeWhile_append_of_stops digits.whole (stops parts)
  obtain ⟨wholeOther, restOther⟩ := takeWhile_append_of_stops digitsOther.whole (stops other)
  rw [← text, same, text, wholeOther] at whole
  rw [← text, same, text, restOther] at rest
  obtain ⟨_, fraction⟩ := parts
  obtain ⟨_, fractionOther⟩ := other
  cases whole
  cases fraction <;> cases fractionOther <;> simp_all [Positional.rest]

theorem exists_digit_text {parts : Positional} (digits : parts.IsDigits) :
    ∃ first more, parts.text = first :: more ∧ first.isDigit = true ∧
      ∀ c ∈ more, c.isDigit = true ∨ c = '.' := by
  obtain ⟨first, more, whole⟩ := List.exists_cons_of_ne_nil digits.nonempty
  have inWhole := digits.whole
  rw [whole, List.forall_mem_cons] at inWhole
  refine ⟨first, more ++ parts.rest, by rw [text, whole]; rfl, inWhole.1, ?_⟩
  refine List.forall_mem_append.mpr ⟨fun c member => .inl (inWhole.2 c member), ?_⟩
  unfold rest
  split
  · simp
  · exact List.forall_mem_cons.mpr ⟨.inr rfl, fun c member => .inl (digits.fraction c member)⟩

end Positional

/-- The text of a number is its sign and the positional text of its shortest decimal. -/
theorem text_of_ofFloat {x : Float} {negative : Bool} {mantissa : Nat} {exponent : Int}
    (parts : Binary.ofFloat x = .finite negative mantissa exponent) :
    (text x).toList = (if negative then ['-'] else []) ++
      (decimalOf mantissa exponent).positional.text := by
  simp only [Number.text, parts, signed, Positional.text, Positional.rest]
  rw [String.toList_ofList]
  split <;> split <;> simp

theorem exists_text {x : Float} (finite : IsFinite x) :
    ∃ first rest, (text x).toList = first :: rest ∧ (first.isDigit = true ∨ first = '-') ∧
      ∀ c ∈ rest, c.isDigit = true ∨ c = '.' := by
  obtain ⟨negative, mantissa, exponent, parts⟩ := finite
  obtain ⟨first, more, starts, isDigit, others⟩ :=
    Positional.exists_digit_text (decimalOf mantissa exponent).isDigits_positional
  rw [text_of_ofFloat parts, starts]
  cases negative with
  | false => exact ⟨first, more, rfl, .inl isDigit, others⟩
  | true =>
    exact ⟨'-', first :: more, rfl, .inr rfl, List.forall_mem_cons.mpr ⟨.inl isDigit, others⟩⟩

/-- Finite numbers are told by their texts. -/
theorem eq_of_text {x y : Float} (finite : IsFinite x) (finiteOther : IsFinite y)
    (same : text x = text y) : x = y := by
  have whole := finite
  obtain ⟨negative, mantissa, exponent, parts⟩ := finite
  obtain ⟨negativeOther, other, place, partsOther⟩ := finiteOther
  have texts := congrArg String.toList same
  rw [text_of_ofFloat parts, text_of_ofFloat partsOther] at texts
  have digits := (decimalOf mantissa exponent).isDigits_positional
  have digitsOther := (decimalOf other place).isDigits_positional
  -- a text that starts with a digit has no sign
  have sign : negative = negativeOther := by
    obtain ⟨first, more, starts, isDigit, _⟩ := Positional.exists_digit_text digits
    obtain ⟨firstOther, moreOther, startsOther, isDigitOther, _⟩ :=
      Positional.exists_digit_text digitsOther
    rw [starts, startsOther] at texts
    cases negative <;> cases negativeOther
    · rfl
    · cases (List.cons.inj texts).1
      cases isDigit
    · cases (List.cons.inj texts).1
      cases isDigitOther
    · rfl
  rw [sign, List.append_cancel_left_eq] at texts
  have decimals := congrArg Positional.value (Positional.eq_of_text digits digitsOther texts)
  rw [Decimal.value_positional, Decimal.value_positional] at decimals
  obtain ⟨rfl, rfl⟩ := eq_of_decimalOf (isCanonical_of_ofFloat parts)
    (isCanonical_of_ofFloat partsOther) decimals
  exact eq_of_ofFloat whole (by rw [parts, partsOther, sign])

end Scriptlet.Number
