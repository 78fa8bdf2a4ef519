import Mathlib.Algebra.Order.Field.Power
import Mathlib.Data.Rat.Cast.Order
import Mathlib.Tactic.Linarith
import Mathlib.Tactic.NormNum
import Mathlib.Tactic.Ring
import Scriptlet.Number.Layout

/-! The shortest decimal of a double is rounded to it, and to no other double. -/

set_option autoImplicit false

namespace Scriptlet.Number

/-! Doubles are told by their mantissa, exponent and sign -/

def IsFinite (x : Float) : Prop :=
  ∃ negative mantissa exponent, Binary.ofFloat x = .finite negative mantissa exponent

instance : DecidablePred IsFinite := fun x =>
  match parts : Binary.ofFloat x with
  | .undefined | .infinite _ =>
    isFalse (by rintro ⟨_, _, _, finite⟩; cases parts.symm.trans finite)
  | .finite negative mantissa exponent => isTrue ⟨negative, mantissa, exponent, parts⟩

/-- The mantissa is as great as it can be, unless the exponent is the least one. -/
structure IsCanonical (mantissa : Nat) (exponent : Int) : Prop where
  below : mantissa < 2 ^ 53
  least : leastExponent ≤ exponent
  full : 2 ^ 52 ≤ mantissa ∨ exponent = leastExponent

theorem isCanonical_of_ofFloat {x : Float} {negative : Bool} {mantissa : Nat} {exponent : Int}
    (parts : Binary.ofFloat x = .finite negative mantissa exponent) :
    IsCanonical mantissa exponent := by
  have size : twoTo 52 = 2 ^ 52 := rfl
  simp only [Binary.ofFloat] at parts
  split at parts
  · cases parts
    have small := Nat.mod_lt x.toBits.toNat (show 0 < twoTo 52 by decide)
    exact ⟨by omega, Int.le_refl _, .inr rfl⟩
  · split at parts
    · split at parts <;> cases parts
    · cases parts
      have small := Nat.mod_lt x.toBits.toNat (show 0 < twoTo 52 by decide)
      exact ⟨by omega, by omega, .inl (by omega)⟩

theorem toBits_of_ofFloat {x : Float} {negative : Bool} {mantissa : Nat} {exponent : Int}
    (parts : Binary.ofFloat x = .finite negative mantissa exponent) :
    x.toBits.toNat = (if negative then 2 ^ 63 else 0) +
      if mantissa < 2 ^ 52 then mantissa
      else (exponent - leastExponent).toNat * 2 ^ 52 + mantissa := by
  have size : twoTo 52 = 2 ^ 52 := rfl
  have bound := x.toBits.toNat_lt
  have sign : twoTo 63 = 2 ^ 63 := rfl
  have fields : twoTo 11 = 2 ^ 11 := rfl
  simp only [Binary.ofFloat] at parts
  generalize x.toBits.toNat = bits at parts bound
  rw [size, sign, fields] at parts
  have whole : (bits / 2 ^ 63 == 1) = true ↔ 2 ^ 63 ≤ bits := by
    rw [beq_iff_eq]
    omega
  split at parts
  · cases parts
    simp only [whole]
    split <;> split <;> omega
  · split at parts
    · split at parts <;> cases parts
    · cases parts
      simp only [whole]
      split <;> split <;> omega

theorem eq_of_toBits {x y : Float} (same : x.toBits = y.toBits) : x = y := by
  obtain ⟨⟨bits, valid⟩⟩ := x
  obtain ⟨⟨other, validOther⟩⟩ := y
  cases same
  rfl

theorem eq_of_ofFloat {x y : Float} (finite : IsFinite x)
    (same : Binary.ofFloat x = Binary.ofFloat y) : x = y := by
  obtain ⟨negative, mantissa, exponent, parts⟩ := finite
  refine eq_of_toBits (UInt64.toNat_inj.mp ?_)
  rw [toBits_of_ofFloat parts, toBits_of_ofFloat (same.symm.trans parts)]

/-! Decimals as rationals -/

def Decimal.value (decimal : Decimal) : ℚ := decimal.digits * 10 ^ decimal.place

theorem zpow_mul_toNat {base : ℚ} (positive : 0 < base) (exponent : Int) :
    base ^ exponent * base ^ (-exponent).toNat = base ^ exponent.toNat := by
  rw [← zpow_natCast, ← zpow_natCast, ← zpow_add₀ positive.ne']
  congr 1
  omega

/-- A number between two others, which it may be itself if both are counted in. -/
def Between (closed : Bool) (low q high : ℚ) : Prop :=
  if closed then low ≤ q ∧ q ≤ high else low < q ∧ q < high

namespace Between

variable {closed : Bool} {low q high : ℚ}

theorem of_strict (above : low < q) (below : q < high) : Between closed low q high := by
  unfold Between
  split
  · exact ⟨above.le, below.le⟩
  · exact ⟨above, below⟩

theorem le (between : Between closed low q high) : low ≤ q ∧ q ≤ high := by
  unfold Between at between
  split at between
  · exact between
  · exact ⟨between.1.le, between.2.le⟩

theorem lt (between : Between closed low q high) (isOpen : closed = false) :
    low < q ∧ q < high := by
  rwa [Between, isOpen, if_neg Bool.false_ne_true] at between

theorem mul_iff {scale : ℚ} (positive : 0 < scale) :
    Between closed (low * scale) (q * scale) (high * scale) ↔ Between closed low q high := by
  simp only [Between, mul_le_mul_iff_left₀ positive, mul_lt_mul_iff_left₀ positive]

end Between

namespace Interval

def Contains (interval : Interval) (q : ℚ) : Prop :=
  Between interval.closed interval.low (q * interval.unit) interval.high

theorem holds_iff (interval : Interval) (n : Nat) :
    interval.holds n = true ↔ interval.Contains n := by
  unfold holds Contains Between
  split <;> rw [Bool.and_eq_true, decide_eq_true_iff, decide_eq_true_iff] <;> norm_cast

theorem mul_unit_inUnitsOf (interval : Interval) (place : Int) (n : Nat) :
    ((n * (interval.inUnitsOf place).unit : Nat) : ℚ) =
      n * 10 ^ place * interval.unit * (10 ^ (-place).toNat : Nat) := by
  have power := zpow_mul_toNat (show (0 : ℚ) < 10 by norm_num) place
  have tens : (interval.inUnitsOf place).unit = interval.unit * 10 ^ place.toNat := rfl
  rw [tens]
  push_cast
  rw [← power]
  ring

theorem holds_inUnitsOf (interval : Interval) (place : Int) (n : Nat) :
    (interval.inUnitsOf place).holds n = true ↔ interval.Contains (n * 10 ^ place) := by
  have positive : (0 : ℚ) < (10 ^ (-place).toNat : Nat) := by positivity
  have tens (exponent : Nat) : tenTo exponent = 10 ^ exponent := rfl
  rw [holds_iff, Contains, ← Nat.cast_mul, mul_unit_inUnitsOf]
  simp only [inUnitsOf, tens]
  rw [Nat.cast_mul, Nat.cast_mul, Between.mul_iff positive, Contains]

theorem neighbours_inUnitsOf (interval : Interval) (place : Int) (positive : 0 < interval.unit)
    {n : Nat} (floor : n = (interval.inUnitsOf place).value / (interval.inUnitsOf place).unit) :
    n * 10 ^ place * interval.unit ≤ (interval.value : ℚ) ∧
      interval.value < ((n + 1 : Nat) * 10 ^ place * interval.unit : ℚ) := by
  have scale : (0 : ℚ) < (10 ^ (-place).toNat : Nat) := by positivity
  have unit : 0 < (interval.inUnitsOf place).unit := Nat.mul_pos positive (Nat.pow_pos (by decide))
  have value : (interval.inUnitsOf place).value = interval.value * 10 ^ (-place).toNat := rfl
  have low := (Nat.le_div_iff_mul_le unit).mp floor.le
  have high := (Nat.div_lt_iff_lt_mul unit).mp (Nat.lt_succ_of_le floor.ge)
  rw [value] at low high
  constructor
  · rw [← mul_le_mul_iff_left₀ scale, ← mul_unit_inUnitsOf]
    exact_mod_cast low
  · rw [← mul_lt_mul_iff_left₀ scale, ← mul_unit_inUnitsOf]
    exact_mod_cast high

theorem holds_of_nearest? {interval : Interval} {n : Nat} (found : interval.nearest? = some n) :
    interval.holds n = true := by
  simp only [nearest?] at found
  split at found
  · cases found
  · next below _ => cases found; exact below
  · next above => cases found; exact above
  · next below above =>
    split at found
    · cases found; exact below
    · cases found; exact above

theorem exists_nearest? {interval : Interval}
    (holds : interval.holds (interval.value / interval.unit) = true ∨
      interval.holds (interval.value / interval.unit + 1) = true) :
    ∃ n, interval.nearest? = some n := by
  simp only [nearest?]
  split
  · next below above => simp [below, above] at holds
  · exact ⟨_, rfl⟩
  · exact ⟨_, rfl⟩
  · exact ⟨_, rfl⟩

end Interval

/-- What a search finds is in the interval, if some number of digits that is tried suffices. -/
theorem contains_search {interval : Interval} {lead : Int} {left count enough : Nat}
    (tried : count ≤ enough ∧ enough < count + left)
    (found : ∃ n, (interval.inUnitsOf (lead - enough)).nearest? = some n) :
    interval.Contains (search interval lead left count).value := by
  induction left generalizing count with
  | zero => omega
  | succ left ih =>
    simp only [search]
    split
    · next digits here =>
      exact (interval.holds_inUnitsOf _ _).mp (Interval.holds_of_nearest? here)
    · next none =>
      refine ih ⟨?_, by omega⟩
      by_contra least
      have same : enough = count := by omega
      obtain ⟨n, some⟩ := found
      rw [same, none] at some
      cases some

/-! The interval around a double -/

def quarter (exponent : Int) : ℚ := 2 ^ (exponent - 2)

theorem quarter_pos (exponent : Int) : 0 < quarter exponent := zpow_pos (by norm_num) _

theorem quarter_succ (exponent : Int) : quarter (exponent + 1) = 2 * quarter exponent := by
  rw [quarter, quarter, ← zpow_one_add₀ (by norm_num)]
  congr 1
  ring

theorem quarter_le {low high : Int} (le : low ≤ high) : quarter low ≤ quarter high :=
  zpow_le_zpow_right₀ (by norm_num) (by omega)

/-- How many quarters the interval reaches down: the distance to the next smaller double can be half
of that to the next greater one. -/
def reach (mantissa : Nat) (exponent : Int) : Nat :=
  if mantissa == twoTo 52 && leastExponent < exponent then 1 else 2

theorem quarter_mul_unit (exponent : Int) :
    quarter exponent * (twoTo (2 - exponent).toNat : Nat) = (twoTo (exponent - 2).toNat : Nat) := by
  have twos (exponent : Nat) : twoTo exponent = 2 ^ exponent := rfl
  have power := zpow_mul_toNat (show (0 : ℚ) < 2 by norm_num) (exponent - 2)
  rw [neg_sub] at power
  rw [twos, twos]
  push_cast
  exact power

/-- What is rounded to a double, in quarters. -/
theorem contains_around (mantissa : Nat) (exponent : Int) (q : ℚ) :
    (Interval.around mantissa exponent).Contains q ↔
      Between (mantissa % 2 == 0)
        ((4 * mantissa - reach mantissa exponent : Nat) * quarter exponent) q
        ((4 * mantissa + 2 : Nat) * quarter exponent) := by
  have unit : (0 : ℚ) < (twoTo (2 - exponent).toNat : Nat) := by
    exact_mod_cast Nat.pow_pos (by decide)
  rw [← Between.mul_iff unit, mul_assoc _ (quarter exponent), mul_assoc _ (quarter exponent),
    quarter_mul_unit, ← Nat.cast_mul, ← Nat.cast_mul]
  rfl

/-! Seventeen digits suffice -/

theorem le_leadingZeros {fuel value unit : Nat} (enough : unit ≤ 10 ^ (fuel + 1) * value) :
    unit ≤ 10 ^ (leadingZeros fuel value unit + 1) * value := by
  induction fuel generalizing value with
  | zero => exact enough
  | succ fuel ih =>
    rw [leadingZeros]
    split
    · next near => simpa using near
    · rw [pow_succ, mul_assoc] at enough
      have further := ih enough
      rw [pow_succ, mul_assoc]
      exact further

theorem leadingPlace_le {value unit : Nat} (positive : 0 < unit)
    (enough : unit ≤ 10 ^ (400 + 1) * value) :
    (10 : ℚ) ^ (leadingPlace value unit - 1) * unit ≤ value := by
  unfold leadingPlace
  split
  · next large =>
    have length : 0 < (Nat.toDigits 10 (value / unit)).length := Nat.length_toDigits_pos
    generalize many : (Nat.toDigits 10 (value / unit)).length = count at length
    have whole : 10 ^ (count - 1) ≤ value / unit := by
      rcases Nat.eq_or_lt_of_le length with one | more
      · rw [← one]
        exact Nat.div_pos large positive
      · by_contra small
        have fits := (Nat.length_toDigits_le_iff (by decide) (Nat.sub_pos_of_lt more)).mpr
          (Nat.lt_of_not_le small)
        omega
    have scaled := (Nat.le_div_iff_mul_le positive).mp whole
    rw [show (count : Int) - 1 = (count - 1 : Nat) by omega, zpow_natCast]
    exact_mod_cast scaled
  · have zeros := le_leadingZeros enough
    generalize leadingZeros 400 value unit = count at zeros
    rw [show -(count : Int) - 1 = -(count + 1 : Nat) by push_cast; ring, zpow_neg, zpow_natCast,
      inv_mul_le_iff₀ (by positivity)]
    exact_mod_cast zeros

theorem cast_sub_reach {mantissa : Nat} (positive : 0 < mantissa) (exponent : Int) :
    ((4 * mantissa - reach mantissa exponent : Nat) : ℚ) =
      4 * mantissa - reach mantissa exponent := by
  have small : reach mantissa exponent ≤ 4 * mantissa := by
    unfold reach
    split <;> omega
  push_cast [Nat.cast_sub small]
  rfl

/-- Of two neighbours among the decimals of so many digits, with a double in between, one is rounded
to it. -/
theorem contains_neighbour {mantissa : Nat} {exponent : Int} {step : ℚ} {n : Nat}
    (positive : 0 < mantissa) (below : mantissa < 2 ^ 53)
    (fine : 10 ^ 16 * step ≤ 4 * mantissa * quarter exponent)
    (low : n * step ≤ 4 * mantissa * quarter exponent)
    (high : 4 * mantissa * quarter exponent < (n + 1) * step) :
    (Interval.around mantissa exponent).Contains (n * step) ∨
      (Interval.around mantissa exponent).Contains ((n + 1) * step) := by
  have unit := quarter_pos exponent
  rw [contains_around, contains_around, cast_sub_reach positive]
  push_cast
  by_cases small : mantissa ≤ 2 ^ 52
  · -- a step is less than half the distance to the next greater double
    have size : (mantissa : ℚ) * quarter exponent ≤ 2 ^ 52 * quarter exponent :=
      mul_le_mul_of_nonneg_right (by exact_mod_cast small) unit.le
    have reaches : (0 : ℚ) ≤ reach mantissa exponent := Nat.cast_nonneg _
    have down : 0 ≤ (reach mantissa exponent : ℚ) * quarter exponent := by positivity
    exact .inr (.of_strict (by linarith) (by linarith))
  · -- two steps are less than the distance between the doubles around
    have size : (mantissa : ℚ) * quarter exponent ≤ 2 ^ 53 * quarter exponent :=
      mul_le_mul_of_nonneg_right (by exact_mod_cast below.le) unit.le
    have two : reach mantissa exponent = 2 := by
      have other : (mantissa == twoTo 52) = false := by
        rw [beq_eq_false_iff_ne]
        intro same
        exact small same.le
      rw [reach, other]
      rfl
    rw [two]
    push_cast
    by_cases near : (4 * mantissa - 2) * quarter exponent < n * step
    · exact .inl (.of_strict near (by linarith))
    · exact .inr (.of_strict (by linarith) (by linarith))

theorem value_around (mantissa : Nat) (exponent : Int) :
    ((Interval.around mantissa exponent).value : ℚ) =
      4 * mantissa * quarter exponent * (Interval.around mantissa exponent).unit := by
  have whole : (Interval.around mantissa exponent).value =
      4 * mantissa * twoTo (exponent - 2).toNat := rfl
  rw [whole, Nat.cast_mul, ← quarter_mul_unit]
  push_cast
  ring_nf
  rfl

theorem two_pow_le_ten_pow {few many : Nat} (le : few ≤ 3 * many) : 2 ^ few ≤ 10 ^ many :=
  calc 2 ^ few
      ≤ 2 ^ (3 * many) := Nat.pow_le_pow_right (by decide) le
    _ = (2 ^ 3) ^ many := Nat.pow_mul ..
    _ ≤ 10 ^ many := Nat.pow_le_pow_left (by decide) _

theorem unit_around_le {mantissa : Nat} {exponent : Int} (positive : 0 < mantissa)
    (least : leastExponent ≤ exponent) :
    (Interval.around mantissa exponent).unit ≤
      10 ^ (400 + 1) * (Interval.around mantissa exponent).value := by
  have value : 1 ≤ (Interval.around mantissa exponent).value :=
    Nat.mul_pos (by omega) (Nat.pow_pos (by decide))
  have range : leastExponent = -1074 := rfl
  have unit : (Interval.around mantissa exponent).unit ≤ 10 ^ (400 + 1) :=
    two_pow_le_ten_pow (by omega)
  exact unit.trans (Nat.le_mul_of_pos_right _ value)

theorem contains_shortest {mantissa : Nat} {exponent : Int} (positive : 0 < mantissa)
    (canonical : IsCanonical mantissa exponent) :
    (Interval.around mantissa exponent).Contains (shortest mantissa exponent).value := by
  have unit : 0 < (Interval.around mantissa exponent).unit := Nat.pow_pos (by decide)
  have unitCast : (0 : ℚ) < (Interval.around mantissa exponent).unit := by exact_mod_cast unit
  have first := leadingPlace_le unit (unit_around_le positive canonical.least)
  have tried : 1 ≤ 17 ∧ 17 < 1 + 17 := by decide
  refine contains_search tried (Interval.exists_nearest? ?_)
  generalize leadingPlace _ _ = lead at first ⊢
  rw [Interval.holds_inUnitsOf, Interval.holds_inUnitsOf]
  generalize floor : Interval.value _ / Interval.unit _ = n
  obtain ⟨low, high⟩ := Interval.neighbours_inUnitsOf _ _ unit floor.symm
  rw [value_around, mul_le_mul_iff_left₀ unitCast] at first low
  rw [value_around, mul_lt_mul_iff_left₀ unitCast] at high
  have fine : (10 : ℚ) ^ 16 * 10 ^ (lead - (17 : Nat)) = 10 ^ (lead - 1) := by
    rw [← zpow_natCast, ← zpow_add₀ (by norm_num)]
    congr 1
    push_cast
    ring
  rw [← fine] at first
  push_cast at high ⊢
  exact contains_neighbour positive canonical.below first low high

/-! No decimal is rounded to two doubles -/

theorem reach_cases (mantissa : Nat) (exponent : Int) :
    reach mantissa exponent = 1 ∨ reach mantissa exponent = 2 := by
  unfold reach
  split
  · exact .inl rfl
  · exact .inr rfl

/-- At a power of two, the next smaller double is nearer than the next greater one. -/
theorem reach_power {exponent : Int} (more : leastExponent < exponent) :
    reach (2 ^ 52) exponent = 1 := by
  rw [reach, decide_eq_true more]
  rfl

theorem not_contains_of_mantissa_lt {mantissa other : Nat} {exponent : Int} {q : ℚ}
    (less : mantissa < other) (here : (Interval.around mantissa exponent).Contains q) :
    ¬(Interval.around other exponent).Contains q := by
  intro there
  rw [contains_around] at here there
  have unit := quarter_pos exponent
  have reaches := reach_cases other exponent
  have apart : 4 * mantissa + 2 ≤ 4 * other - reach other exponent := by omega
  have order : ((4 * mantissa + 2 : Nat) : ℚ) * quarter exponent ≤
      (4 * other - reach other exponent : Nat) * quarter exponent :=
    mul_le_mul_of_nonneg_right (by exact_mod_cast apart) unit.le
  -- the ends of the intervals meet at most in q, which belongs to the even mantissa alone
  have meet := le_antisymm order (there.le.1.trans here.le.2)
  have ends : 4 * mantissa + 2 = 4 * other - reach other exponent := by
    exact_mod_cast mul_right_cancel₀ unit.ne' meet
  rcases Nat.mod_two_eq_zero_or_one mantissa with even | odd
  · have odd : (other % 2 == 0) = false := by
      rw [beq_eq_false_iff_ne]
      omega
    exact absurd ((there.lt odd).1.trans_le here.le.2) (not_lt_of_ge order)
  · have odd : (mantissa % 2 == 0) = false := by
      rw [beq_eq_false_iff_ne]
      omega
    exact absurd (there.le.1.trans_lt (here.lt odd).2) (not_lt_of_ge order)

theorem not_contains_of_exponent_lt {mantissa other : Nat} {exponent place : Int} {q : ℚ}
    (canonical : IsCanonical mantissa exponent) (canonicalOther : IsCanonical other place)
    (less : exponent < place) (here : (Interval.around mantissa exponent).Contains q) :
    ¬(Interval.around other place).Contains q := by
  intro there
  rw [contains_around] at here there
  have unit := quarter_pos exponent
  have small := canonical.below
  -- the one interval ends below this bound, and the other one starts at it or above
  have upper : q < (2 ^ 55 - 2 : Nat) * quarter exponent := by
    rcases Nat.mod_two_eq_zero_or_one mantissa with even | odd
    · have below : 4 * mantissa + 2 < 2 ^ 55 - 2 := by omega
      exact here.le.2.trans_lt (mul_lt_mul_of_pos_right (by exact_mod_cast below) unit)
    · have isOpen : (mantissa % 2 == 0) = false := by rw [odd]; rfl
      have below : 4 * mantissa + 2 ≤ 2 ^ 55 - 2 := by omega
      have scaled := mul_le_mul_of_nonneg_right (Nat.cast_le.mpr below) unit.le
      exact (here.lt isOpen).2.trans_le (by exact_mod_cast scaled)
  have least : leastExponent < place := canonical.least.trans_lt less
  -- the exponent is not the least one, so the mantissa is as great as it can be
  have full : 2 ^ 54 - 1 ≤ 4 * other - reach other place := by
    have reaches := reach_cases other place
    rcases canonicalOther.full with large | isLeast
    · rcases Nat.eq_or_lt_of_le large with power | larger
      · rw [← power, reach_power least]
        decide
      · omega
    · omega
  have lower : ((2 ^ 55 - 2 : Nat) : ℚ) * quarter exponent ≤ q :=
    calc ((2 ^ 55 - 2 : Nat) : ℚ) * quarter exponent
        = (2 ^ 54 - 1 : Nat) * quarter (exponent + 1) := by
          rw [quarter_succ]
          norm_num
          ring
      _ ≤ (2 ^ 54 - 1 : Nat) * quarter place :=
          mul_le_mul_of_nonneg_left (quarter_le (by omega)) (Nat.cast_nonneg _)
      _ ≤ (4 * other - reach other place : Nat) * quarter place :=
          mul_le_mul_of_nonneg_right (by exact_mod_cast full) (quarter_pos place).le
      _ ≤ q := there.le.1
  exact absurd upper (not_lt_of_ge lower)

/-- A decimal is rounded to one double. -/
theorem eq_of_contains {mantissa other : Nat} {exponent place : Int} {q : ℚ}
    (canonical : IsCanonical mantissa exponent) (canonicalOther : IsCanonical other place)
    (here : (Interval.around mantissa exponent).Contains q)
    (there : (Interval.around other place).Contains q) :
    mantissa = other ∧ exponent = place := by
  rcases lt_trichotomy exponent place with less | rfl | greater
  · exact absurd there (not_contains_of_exponent_lt canonical canonicalOther less here)
  · rcases lt_trichotomy mantissa other with less | rfl | greater
    · exact absurd there (not_contains_of_mantissa_lt less here)
    · exact ⟨rfl, rfl⟩
    · exact absurd here (not_contains_of_mantissa_lt greater there)
  · exact absurd here (not_contains_of_exponent_lt canonicalOther canonical greater there)

theorem decimalOf_value_pos {mantissa : Nat} {exponent : Int} (positive : 0 < mantissa)
    (canonical : IsCanonical mantissa exponent) : 0 < (decimalOf mantissa exponent).value := by
  rw [decimalOf, if_neg positive.ne']
  have within := (contains_around ..).mp (contains_shortest positive canonical)
  have reaches := reach_cases mantissa exponent
  have low : 0 < 4 * mantissa - reach mantissa exponent := by omega
  exact (mul_pos (Nat.cast_pos.mpr low) (quarter_pos exponent)).trans_le within.le.1

/-- A double has a decimal that no other has. -/
theorem eq_of_decimalOf {mantissa other : Nat} {exponent place : Int}
    (canonical : IsCanonical mantissa exponent) (canonicalOther : IsCanonical other place)
    (same : (decimalOf mantissa exponent).value = (decimalOf other place).value) :
    mantissa = other ∧ exponent = place := by
  have zero (exponent : Int) : (decimalOf 0 exponent).value = 0 := by
    simp [decimalOf, Decimal.value]
  rcases Nat.eq_zero_or_pos mantissa with rfl | positive
  · rcases Nat.eq_zero_or_pos other with rfl | positiveOther
    · refine ⟨rfl, ?_⟩
      rw [canonical.full.resolve_left (by decide), canonicalOther.full.resolve_left (by decide)]
    · have more := decimalOf_value_pos positiveOther canonicalOther
      rw [← same, zero] at more
      exact absurd more (lt_irrefl 0)
  · rcases Nat.eq_zero_or_pos other with rfl | positiveOther
    · have more := decimalOf_value_pos positive canonical
      rw [same, zero] at more
      exact absurd more (lt_irrefl 0)
    · rw [decimalOf, decimalOf, if_neg positive.ne', if_neg positiveOther.ne'] at same
      have there := contains_shortest positiveOther canonicalOther
      rw [← same] at there
      exact eq_of_contains canonical canonicalOther (contains_shortest positive canonical) there

end Scriptlet.Number
