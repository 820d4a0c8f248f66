import Mathlib.Tactic.FieldSimp
import SchemaLang.Proofs.Number.Interval

/-
  A quotient is rounded to the number nearest to it. The unit is chosen
  so that the quotient has 53 binary digits, or is the smallest one
  there is; the quotient in that unit is rounded to an integer. Numbers
  of smaller units lie below all multiples with 53 digits, so no number
  is nearer than the nearest multiple.

  Main declarations:
    * `Binary64.Nearest`
    * `Binary64.Rounded`
    * `Binary64.unitExponent_bounds`
    * `Binary64.parts_ofFields` and `Binary64.magnitude_of_parts`
    * `Binary64.nearest_ofRatio`
    * `Binary64.value_ofNat`
-/

namespace SchemaLang

namespace Binary64

/-
  No finite number is nearer to a value. If another one is as near,
  the number has an even significand.
-/
structure Nearest
    (x : Binary64)
    (v : ℚ) : Prop where
  finite : x.isFinite = true
  least :
    ∀ y : Binary64, y.isFinite = true → |x.value - v| ≤ |y.value - v|
  even :
    ∀ y : Binary64, y.isFinite = true → |y.value - v| = |x.value - v| →
      y.value = x.value ∨ x.significand % 2 = 0

------------------------------------------------------------
-- Rounding To Integers
------------------------------------------------------------

/- An integer nearest to a value; a half goes to the even one. -/
structure Rounded
    (v : ℚ)
    (n : Nat) : Prop where
  near : |(n : ℚ) - v| ≤ 1 / 2
  even : |(n : ℚ) - v| = 1 / 2 → n % 2 = 0

namespace Rounded

variable {v : ℚ}
variable {n : Nat}

/- No other integer is nearer, and one as near is half a unit away. -/
theorem le_of_ne
    (hRounded : Rounded v n)
    {k : Nat}
    (hOther : k ≠ n) :
    1 / 2 ≤ |(k : ℚ) - v| := by
  have hApart : (1 : ℚ) ≤ |(k : ℚ) - n| := by
    have hWhole : (1 : Int) ≤ |(k : Int) - n| :=
      Int.one_le_abs (by omega)
    exact_mod_cast hWhole
  have hTriangle := abs_sub_le (k : ℚ) v n
  have hNear := hRounded.near
  rw [abs_sub_comm] at hNear
  linarith

theorem least
    (hRounded : Rounded v n)
    (k : Nat) :
    |(n : ℚ) - v| ≤ |(k : ℚ) - v| := by
  by_cases hSame : k = n
  · rw [hSame]
  · exact hRounded.near.trans (hRounded.le_of_ne hSame)

/- Bounds that are integers are kept. -/
theorem le_of_le
    {bound : Nat}
    (hRounded : Rounded v n)
    (hBound : v ≤ bound) :
    n ≤ bound := by
  by_contra hMore
  have hNear := (abs_le.mp hRounded.near).2
  have hCast : (bound : ℚ) + 1 ≤ n := by
    exact_mod_cast Nat.lt_of_not_le hMore
  linarith

theorem ge_of_ge
    {bound : Nat}
    (hRounded : Rounded v n)
    (hBound : bound ≤ v) :
    bound ≤ n := by
  by_contra hLess
  have hNear := (abs_le.mp hRounded.near).1
  have hCast : (n : ℚ) + 1 ≤ bound := by
    exact_mod_cast Nat.lt_of_not_le hLess
  linarith

/- An integer is rounded to itself. -/
theorem eq_of_natCast
    {k : Nat}
    (hRounded : Rounded k n) :
    n = k :=
  Nat.le_antisymm (hRounded.le_of_le le_rfl) (hRounded.ge_of_ge le_rfl)

end Rounded

/- The distance is at most half the denominator, and the tie is even. -/
theorem roundQuotient_bounds
    (num : Nat)
    {den : Nat}
    (hDen : 0 < den) :
    2 * num ≤ 2 * (den * roundQuotient num den) + den ∧
      2 * (den * roundQuotient num den) ≤ 2 * num + den ∧
      (2 * num = 2 * (den * roundQuotient num den) + den ∨
          2 * (den * roundQuotient num den) = 2 * num + den →
        roundQuotient num den % 2 = 0) := by
  have hSplit := Nat.div_add_mod num den
  have hRest := Nat.mod_lt num hDen
  unfold roundQuotient
  dsimp only
  generalize num / den = quotient at *
  generalize num % den = rest at *
  split
  · omega
  · split
    · rw [Nat.mul_add, Nat.mul_one]
      omega
    · rcases Nat.mod_two_eq_zero_or_one quotient with hEven | hOdd
      · rw [hEven, Nat.add_zero]
        omega
      · rw [hOdd, Nat.mul_add, Nat.mul_one]
        omega

theorem rounded_roundQuotient
    (num : Nat)
    {den : Nat}
    (hDen : 0 < den) :
    Rounded (num / den) (roundQuotient num den) := by
  have hPositive : (0 : ℚ) < den := by exact_mod_cast hDen
  obtain ⟨hAbove, hBelow, hTie⟩ := roundQuotient_bounds num hDen
  generalize roundQuotient num den = n at *
  have hAbove' : 2 * (num : ℚ) ≤ 2 * (den * n) + den := by
    exact_mod_cast hAbove
  have hBelow' : 2 * ((den : ℚ) * n) ≤ 2 * num + den := by
    exact_mod_cast hBelow
  have hScaled : (n - (num : ℚ) / den) * den = den * n - num := by
    field_simp
  constructor
  · rw [abs_le]
    constructor <;> nlinarith
  · intro hHalf
    apply hTie
    rcases (abs_eq (by norm_num)).mp hHalf with hUp | hDown
    · right
      rw [hUp] at hScaled
      have hCast : 2 * ((den : ℚ) * n) = 2 * num + den := by linarith
      exact_mod_cast hCast
    · left
      rw [hDown] at hScaled
      have hCast : 2 * (num : ℚ) = 2 * (den * n) + den := by linarith
      exact_mod_cast hCast

------------------------------------------------------------
-- The Unit
------------------------------------------------------------

section

variable {num den : Nat}

/- The quotient over a power of two is a quotient of naturals. -/
theorem quotient_div_zpow
    (hDen : 0 < den)
    (unit : Int) :
    (num : ℚ) / den / 2 ^ unit =
      (num * Nat.pow 2 (-unit).toNat : Nat) /
        (den * Nat.pow 2 unit.toNat : Nat) := by
  have hPower := zpow_mul_pow_toNat (show (2 : ℚ) ≠ 0 by norm_num) unit
  have hPositive : (den : ℚ) ≠ 0 := by exact_mod_cast hDen.ne'
  push_cast [Nat.pow_eq]
  rw [← hPower]
  field_simp

/- The lengths of both parts give the quotient's up to one digit. -/
theorem quotient_bounds
    (hNum : 0 < num)
    (hDen : 0 < den) :
    (2 : ℚ) ^ ((Nat.log2 num : Int) - Nat.log2 den - 1) ≤ num / den ∧
      (num : ℚ) / den < 2 ^ ((Nat.log2 num : Int) - Nat.log2 den + 1) := by
  have hPositive : (0 : ℚ) < den := by exact_mod_cast hDen
  have hNumLow : (2 : ℚ) ^ Nat.log2 num ≤ num := by
    exact_mod_cast Nat.log2_self_le hNum.ne'
  have hNumHigh : (num : ℚ) < 2 ^ (Nat.log2 num + 1) := by
    exact_mod_cast Nat.lt_log2_self
  have hDenLow : (2 : ℚ) ^ Nat.log2 den ≤ den := by
    exact_mod_cast Nat.log2_self_le hDen.ne'
  have hDenHigh : (den : ℚ) < 2 ^ (Nat.log2 den + 1) := by
    exact_mod_cast Nat.lt_log2_self
  constructor
  · rw [le_div_iff₀ hPositive]
    calc
      (2 : ℚ) ^ ((Nat.log2 num : Int) - Nat.log2 den - 1) * den ≤
          2 ^ ((Nat.log2 num : Int) - Nat.log2 den - 1) *
            2 ^ (Nat.log2 den + 1) := by gcongr
      _ = 2 ^ Nat.log2 num := by
        rw [← zpow_natCast, ← zpow_natCast, ← zpow_add₀ (by norm_num)]
        congr 1
        push_cast
        ring
      _ ≤ num := hNumLow
  · rw [div_lt_iff₀ hPositive]
    calc
      (num : ℚ) < 2 ^ (Nat.log2 num + 1) := hNumHigh
      _ = 2 ^ ((Nat.log2 num : Int) - Nat.log2 den + 1) *
            2 ^ Nat.log2 den := by
        rw [← zpow_natCast, ← zpow_natCast, ← zpow_add₀ (by norm_num)]
        congr 1
        push_cast
        ring
      _ ≤ 2 ^ ((Nat.log2 num : Int) - Nat.log2 den + 1) * den := by gcongr

/- Whether a quotient has more than 53 digits in a unit. -/
theorem reaches_iff
    (num : Nat)
    (hDen : 0 < den)
    (unit : Int) :
    den * Nat.pow 2 unit.toNat * Nat.pow 2 53 ≤
        num * Nat.pow 2 (-unit).toNat ↔
      (2 : ℚ) ^ (unit + 53) ≤ num / den := by
  have hUnit : (0 : ℚ) < 2 ^ unit := by positivity
  have hDen' : (0 : ℚ) < (den * Nat.pow 2 unit.toNat : Nat) := by
    rw [Nat.pow_eq]
    positivity
  rw [add_comm, zpow_add₀ (by norm_num), ← le_div_iff₀ hUnit,
    quotient_div_zpow hDen, le_div_iff₀ hDen', Nat.mul_comm]
  norm_cast

/-
  In the chosen unit, the quotient has 53 binary digits, or less if the
  unit is the smallest one.
-/
theorem unitExponent_bounds
    (hNum : 0 < num)
    (hDen : 0 < den) :
    -1074 ≤ unitExponent num den ∧
      (num : ℚ) / den < 2 ^ (unitExponent num den + 53) ∧
      (unitExponent num den = -1074 ∨
        2 ^ (unitExponent num den + 52) ≤ (num : ℚ) / den) := by
  obtain ⟨hLow, hHigh⟩ := quotient_bounds hNum hDen
  have hReaches := reaches_iff num hDen
    ((Nat.log2 num : Int) - Nat.log2 den - 53)
  unfold unitExponent
  dsimp only
  generalize (Nat.log2 num : Int) - Nat.log2 den = length at *
  -- The unit before it is bounded from below.
  generalize hFree :
      (if den * Nat.pow 2 (length - 53).toNat * Nat.pow 2 53 ≤
          num * Nat.pow 2 (-(length - 53)).toNat then
        length - 53 + 1 else length - 53) = free
  have hDigits :
      (num : ℚ) / den < 2 ^ (free + 53) ∧
        2 ^ (free + 52) ≤ (num : ℚ) / den := by
    split at hFree
    · rename_i hReached
      rw [hReaches, sub_add_cancel] at hReached
      rw [← hFree, show length - 53 + 1 + 53 = length + 1 by ring,
        show length - 53 + 1 + 52 = length by ring]
      exact ⟨hHigh, hReached⟩
    · rename_i hReached
      rw [hReaches, sub_add_cancel, not_le] at hReached
      rw [← hFree, sub_add_cancel,
        show length - 53 + 52 = length - 1 by ring]
      exact ⟨hReached, hLow⟩
  refine ⟨le_max_right _ _, hDigits.1.trans_le ?_, ?_⟩
  · exact zpow_le_zpow_right₀ (by norm_num) (by omega)
  · rcases max_choice free (-1074) with hMax | hMax
    · rw [hMax]
      exact .inr hDigits.2
    · exact .inl hMax

/-
  The number of units is the rounded quotient; it has 53 binary digits,
  if the unit is not the smallest one, or is the next power of two.
-/
theorem units_bounds
    (hNum : 0 < num)
    (hDen : 0 < den)
    {units : Nat}
    (hRounded : Rounded (num / den / 2 ^ unitExponent num den) units) :
    units ≤ 2 ^ 53 ∧
      (unitExponent num den = -1074 ∨ 2 ^ 52 ≤ units) := by
  obtain ⟨-, hBelow, hAbove⟩ := unitExponent_bounds hNum hDen
  have hUnit : (0 : ℚ) < 2 ^ unitExponent num den := by positivity
  rw [add_comm, zpow_add₀ (by norm_num)] at hBelow hAbove
  constructor
  · refine hRounded.le_of_le ?_
    rw [div_le_iff₀ hUnit]
    exact_mod_cast hBelow.le
  · refine hAbove.imp_right fun hFull => hRounded.ge_of_ge ?_
    rw [le_div_iff₀ hUnit]
    exact_mod_cast hFull

end

------------------------------------------------------------
-- Fields
------------------------------------------------------------

theorem isFinite_ofFields
    {negative : Bool}
    {fields : Nat} :
    (ofFields negative fields).isFinite = true ↔
      fields / 4503599627370496 < 2047 := by
  unfold ofFields
  split
  · rename_i hSmall
    exact iff_of_true (bne_iff_ne.mpr hSmall.ne) hSmall
  · rename_i hLarge
    exact iff_of_false (by simp [isFinite, infinity]) hLarge

/-
  Fields that are put together from a unit and a number of units are
  those of their product. If the units are a power of two too many,
  the exponent is the next one and the fraction is zero.
-/
theorem parts_ofFields
    {negative : Bool}
    {exponent units : Nat}
    (hUnits : units ≤ 2 ^ 53)
    (hFull : exponent = 0 ∨ 2 ^ 52 ≤ units)
    {x : Binary64}
    (hFields :
      ofFields negative (exponent * 4503599627370496 + units) = x)
    (hFinite : x.isFinite = true) :
    x.negative = negative ∧
      (x.significand = units ∧ x.scale = exponent - 1074 ∨
        units = 2 ^ 53 ∧ x.significand = 2 ^ 52 ∧
          x.scale = exponent - 1073) := by
  rw [← hFields, isFinite_ofFields] at hFinite
  unfold ofFields at hFields
  rw [dif_pos hFinite] at hFields
  rw [← hFields]
  refine ⟨rfl, ?_⟩
  unfold significand scale
  rw [Nat.pow_eq]
  dsimp only
  split <;> omega

theorem magnitude_of_parts
    {x : Binary64}
    {unit : Int}
    {units : Nat}
    (hParts :
      x.significand = units ∧ x.scale = unit ∨
        units = 2 ^ 53 ∧ x.significand = 2 ^ 52 ∧ x.scale = unit + 1) :
    x.magnitude = units * 2 ^ unit ∧
      (units % 2 = 0 → x.significand % 2 = 0) := by
  unfold magnitude
  rcases hParts with ⟨hSignificand, hScale⟩ | ⟨rfl, hSignificand, hScale⟩
  · rw [hSignificand, hScale]
    exact ⟨rfl, id⟩
  · rw [hSignificand, hScale, zpow_add₀ (by norm_num)]
    exact ⟨by push_cast; ring, fun _ => rfl⟩

------------------------------------------------------------
-- Nearest Numbers
------------------------------------------------------------

/-
  In any unit, a number is a multiple of it or below all multiples with
  53 binary digits.
-/
theorem magnitude_cases
    (y : Binary64)
    (unit : Int) :
    (∃ k : Nat, y.magnitude = k * 2 ^ unit) ∨
      unit ≠ -1074 ∧ y.magnitude < 2 ^ (unit + 52) := by
  have hScale : -1074 ≤ y.scale := by
    unfold scale
    omega
  unfold magnitude
  rcases le_or_gt unit y.scale with hMore | hLess
  · left
    refine ⟨y.significand * 2 ^ (y.scale - unit).toNat, ?_⟩
    push_cast
    rw [mul_assoc, ← zpow_natCast, ← zpow_add₀ (by norm_num)]
    congr 2
    omega
  · right
    refine ⟨by omega, ?_⟩
    have hSignificand : (y.significand : ℚ) < 2 ^ 53 := by
      exact_mod_cast y.significand_lt
    calc
      (y.significand : ℚ) * 2 ^ y.scale < 2 ^ 53 * 2 ^ y.scale := by gcongr
      _ = 2 ^ (53 + y.scale) := by
        rw [zpow_add₀ (by norm_num)]
        norm_cast
      _ ≤ 2 ^ (unit + 52) :=
        zpow_le_zpow_right₀ (by norm_num) (by omega)

/-
  What is rounded to a number of units is nearest to the number that has
  so many, among all numbers without a sign.
-/
theorem magnitude_least
    {x : Binary64}
    {v : ℚ}
    {unit : Int}
    {units : Nat}
    (hFull : unit = -1074 ∨ 2 ^ (unit + 52) ≤ v)
    (hRounded : Rounded (v / 2 ^ unit) units)
    (hMagnitude : x.magnitude = units * 2 ^ unit)
    (y : Binary64) :
    |x.magnitude - v| ≤ |y.magnitude - v| ∧
      (|y.magnitude - v| = |x.magnitude - v| →
        y.magnitude = x.magnitude ∨ units % 2 = 0) := by
  have hPositive : (0 : ℚ) < 2 ^ unit := by positivity
  have hDistance : ∀ k : Nat,
      |(k : ℚ) * 2 ^ unit - v| = |k - v / 2 ^ unit| * 2 ^ unit := by
    intro k
    rw [← abs_of_pos hPositive, ← abs_mul, abs_of_pos hPositive, sub_mul,
      div_mul_cancel₀ _ hPositive.ne']
  rw [hMagnitude]
  rcases y.magnitude_cases unit with ⟨k, hMultiple⟩ | ⟨hOther, hBelow⟩
  · rw [hMultiple, hDistance, hDistance]
    refine ⟨mul_le_mul_of_nonneg_right (hRounded.least k) hPositive.le,
      fun hTie => ?_⟩
    by_cases hSame : k = units
    · exact .inl (by rw [hSame])
    · -- Another multiple is as near only if both are half a unit away.
      have hTie' := mul_right_cancel₀ hPositive.ne' hTie
      have hHalf := hRounded.le_of_ne hSame
      rw [hTie'] at hHalf
      exact .inr (hRounded.even (le_antisymm hRounded.near hHalf))
  · -- The least multiple with 53 digits is between it and the value.
    have hReached := hFull.resolve_left hOther
    have hMultiple : (2 : ℚ) ^ (unit + 52) = (2 ^ 52 : Nat) * 2 ^ unit := by
      rw [add_comm, zpow_add₀ (by norm_num)]
      norm_cast
    have hFarther : |(2 ^ 52 : Nat) * 2 ^ unit - v| < |y.magnitude - v| := by
      rw [← hMultiple, abs_of_nonpos (by linarith),
        abs_of_nonpos (by linarith)]
      linarith
    have hLess : |(units : ℚ) * 2 ^ unit - v| < |y.magnitude - v| := by
      refine lt_of_le_of_lt ?_ hFarther
      rw [hDistance, hDistance]
      exact mul_le_mul_of_nonneg_right (hRounded.least _) hPositive.le
    exact ⟨hLess.le, fun hTie => absurd hTie hLess.ne'⟩

theorem magnitude_nonneg
    (x : Binary64) :
    0 ≤ x.magnitude := by
  unfold magnitude
  positivity

theorem abs_sign
    (x : Binary64) :
    |x.sign| = 1 := by
  unfold sign
  split <;> norm_num

theorem value_eq_sign_mul
    (x : Binary64) :
    x.value = x.sign * x.magnitude := by
  unfold value magnitude
  ring

theorem abs_value
    (x : Binary64) :
    |x.value| = x.magnitude := by
  rw [value_eq_sign_mul, abs_mul, abs_sign, one_mul,
    abs_of_nonneg x.magnitude_nonneg]

/- Two numbers of one size are as near only if they are equal. -/
theorem value_eq_of_tie
    {x y : Binary64}
    {v : ℚ}
    (hPositive : 0 < v)
    (hSize : y.magnitude = x.magnitude)
    (hTie : |y.value - x.sign * v| = |x.value - x.sign * v|) :
    y.value = x.value := by
  have hMagnitude := x.magnitude_nonneg
  rw [value_eq_sign_mul, value_eq_sign_mul x, hSize] at hTie ⊢
  have hSigns : y.sign = x.sign ∨ y.sign = -x.sign := by
    unfold sign
    cases x.negative <;> cases y.negative <;> simp
  rcases hSigns with hSign | hSign
  · rw [hSign]
  · rw [hSign, show -x.sign * x.magnitude - x.sign * v =
        x.sign * -(x.magnitude + v) by ring, ← mul_sub, abs_mul, abs_mul,
      abs_sign, one_mul, one_mul, abs_neg, abs_of_nonneg (by linarith)]
      at hTie
    have hZero : x.magnitude = 0 := by
      rcases abs_cases (x.magnitude - v) with ⟨hAbs, -⟩ | ⟨hAbs, -⟩ <;>
        linarith
    rw [hZero, mul_zero, mul_zero]

/- With its sign, a number is nearest to the value with that sign. -/
theorem nearest_of_magnitude
    {x : Binary64}
    {v : ℚ}
    (hPositive : 0 < v)
    (hFinite : x.isFinite = true)
    (hLeast :
      ∀ y : Binary64, |x.magnitude - v| ≤ |y.magnitude - v| ∧
        (|y.magnitude - v| = |x.magnitude - v| →
          y.magnitude = x.magnitude ∨ x.significand % 2 = 0)) :
    x.Nearest (x.sign * v) := by
  have hOwn : |x.value - x.sign * v| = |x.magnitude - v| := by
    rw [value_eq_sign_mul, ← mul_sub, abs_mul, abs_sign, one_mul]
  have hOthers : ∀ y : Binary64,
      |y.magnitude - v| ≤ |y.value - x.sign * v| := by
    intro y
    have hSides := abs_abs_sub_abs_le y.value (x.sign * v)
    rw [abs_value, abs_mul, abs_sign, one_mul, abs_of_pos hPositive]
      at hSides
    exact hSides
  refine ⟨hFinite, fun y _ => ?_, fun y _ hTie => ?_⟩
  · rw [hOwn]
    exact (hLeast y).1.trans (hOthers y)
  · have hSizes : |y.magnitude - v| = |x.magnitude - v| :=
      le_antisymm ((hOthers y).trans (hTie.trans hOwn).le) (hLeast y).1
    exact ((hLeast y).2 hSizes).imp_left fun hSize =>
      value_eq_of_tie hPositive hSize hTie

------------------------------------------------------------
-- Quotients
------------------------------------------------------------

variable {negative : Bool}
variable {num den : Nat}

/- A positive quotient is rounded in its unit. -/
theorem exists_ofRatio
    (negative : Bool)
    (hNum : 0 < num)
    (hDen : 0 < den) :
    ∃ units,
      Rounded (num / den / 2 ^ unitExponent num den) units ∧
        ofRatio negative num den =
          ofFields negative ((unitExponent num den + 1074).toNat *
            4503599627370496 + units) := by
  refine ⟨_, ?_, if_neg hNum.ne'⟩
  rw [quotient_div_zpow hDen]
  refine rounded_roundQuotient _ ?_
  rw [Nat.pow_eq]
  positivity

/- The parts of the number that a positive quotient is rounded to. -/
theorem parts_ofRatio
    (hNum : 0 < num)
    (hDen : 0 < den)
    (hFinite : (ofRatio negative num den).isFinite = true) :
    ∃ units,
      Rounded (num / den / 2 ^ unitExponent num den) units ∧
        (ofRatio negative num den).negative = negative ∧
        (ofRatio negative num den).magnitude =
          units * 2 ^ unitExponent num den ∧
        (units % 2 = 0 →
          (ofRatio negative num den).significand % 2 = 0) := by
  have hLow := (unitExponent_bounds hNum hDen).1
  obtain ⟨units, hRounded, hRatio⟩ := exists_ofRatio negative hNum hDen
  obtain ⟨hUnits, hFull⟩ := units_bounds hNum hDen hRounded
  obtain ⟨hNegative, hParts⟩ :=
    parts_ofFields hUnits (hFull.imp_left (by omega)) hRatio.symm hFinite
  rw [show (((unitExponent num den + 1074).toNat : Nat) : Int) - 1074 =
      unitExponent num den by omega,
    show (((unitExponent num den + 1074).toNat : Nat) : Int) - 1073 =
      unitExponent num den + 1 by omega] at hParts
  exact ⟨units, hRounded, hNegative, magnitude_of_parts hParts⟩

/- A quotient is rounded to the number nearest to it. -/
theorem nearest_ofRatio
    (hNum : 0 < num)
    (hDen : 0 < den)
    (hFinite : (ofRatio negative num den).isFinite = true) :
    (ofRatio negative num den).Nearest
      ((if negative then -1 else 1) * (num / den)) := by
  obtain ⟨units, hRounded, hNegative, hMagnitude, hEven⟩ :=
    parts_ofRatio hNum hDen hFinite
  have hSign :
      (ofRatio negative num den).sign = if negative then -1 else 1 := by
    unfold sign
    rw [hNegative]
  rw [← hSign]
  refine nearest_of_magnitude (by positivity) hFinite fun y => ?_
  have hLeast :=
    magnitude_least (unitExponent_bounds hNum hDen).2.2 hRounded hMagnitude y
  exact ⟨hLeast.1, fun hTie => (hLeast.2 hTie).imp_right hEven⟩

/- The unit of a quotient below a power of two. -/
theorem unitExponent_lt
    (hNum : 0 < num)
    (hDen : 0 < den)
    {length : Nat}
    (hSmall : (num : ℚ) / den < 2 ^ length) :
    unitExponent num den = -1074 ∨ unitExponent num den + 52 < length := by
  refine (unitExponent_bounds hNum hDen).2.2.imp_right fun hFull => ?_
  rw [← zpow_natCast] at hSmall
  exact (zpow_lt_zpow_iff_right₀ (by norm_num)).mp (hFull.trans_lt hSmall)

/- A quotient below half the range is rounded to a finite number. -/
theorem isFinite_ofRatio
    (hNum : 0 < num)
    (hDen : 0 < den)
    {length : Nat}
    (hLength : length ≤ 1023)
    (hSmall : (num : ℚ) / den < 2 ^ length) :
    (ofRatio negative num den).isFinite = true := by
  obtain ⟨units, hRounded, hRatio⟩ := exists_ofRatio negative hNum hDen
  have hUnits := (units_bounds hNum hDen hRounded).1
  have hUnit := unitExponent_lt hNum hDen hSmall
  rw [hRatio, isFinite_ofFields]
  omega

------------------------------------------------------------
-- Naturals
------------------------------------------------------------

variable {n length : Nat}

theorem value_zero :
    (zero negative).value = 0 := by
  simp [value, significand, zero]

theorem cast_div_one
    (n : Nat) :
    (n : ℚ) / (1 : Nat) = n := by
  rw [Nat.cast_one, div_one]

theorem isFinite_ofNat
    (hLength : length ≤ 1023)
    (hSmall : n < 2 ^ length) :
    (ofNat n).isFinite = true := by
  unfold ofNat
  rcases Nat.eq_zero_or_pos n with rfl | hPositive
  · rfl
  · refine isFinite_ofRatio hPositive Nat.one_pos hLength ?_
    rw [cast_div_one]
    exact_mod_cast hSmall

/- A natural is rounded to the number nearest to it. -/
theorem nearest_ofNat
    (hLength : length ≤ 1023)
    (hSmall : n < 2 ^ length) :
    (ofNat n).Nearest n := by
  have hFinite := isFinite_ofNat hLength hSmall
  unfold ofNat at hFinite ⊢
  rcases Nat.eq_zero_or_pos n with rfl | hPositive
  · refine ⟨hFinite, fun y _ => ?_, fun y _ _ => .inr rfl⟩
    rw [ofRatio, if_pos rfl, value_zero, Nat.cast_zero, sub_zero, abs_zero]
    exact abs_nonneg _
  · have hNearest := nearest_ofRatio hPositive Nat.one_pos hFinite
    rw [cast_div_one, if_neg Bool.false_ne_true, one_mul] at hNearest
    exact hNearest

/- A natural of at most 53 binary digits is a number. -/
theorem value_ofNat
    (hSmall : n < 2 ^ 53) :
    (ofNat n).value = n := by
  have hFinite : (ofNat n).isFinite = true :=
    isFinite_ofNat (by decide) hSmall
  unfold ofNat at hFinite ⊢
  rcases Nat.eq_zero_or_pos n with rfl | hPositive
  · rw [ofRatio, if_pos rfl, value_zero, Nat.cast_zero]
  · obtain ⟨units, hRounded, hNegative, hMagnitude, -⟩ :=
      parts_ofRatio hPositive Nat.one_pos hFinite
    have hUnit : unitExponent n 1 ≤ 0 := by
      have hLess : (n : ℚ) / (1 : Nat) < 2 ^ 53 := by
        rw [cast_div_one]
        exact_mod_cast hSmall
      have hUnit := unitExponent_lt hPositive Nat.one_pos hLess
      push_cast at hUnit
      omega
    obtain ⟨shift, hShift⟩ :=
      Int.eq_ofNat_of_zero_le (show 0 ≤ -unitExponent n 1 by omega)
    have hPower : (2 : ℚ) ^ unitExponent n 1 = (2 ^ shift)⁻¹ := by
      rw [← zpow_natCast, ← zpow_neg]
      congr 1
      omega
    -- The unit is at most one, so nothing is rounded.
    rw [cast_div_one, hPower, div_inv_eq_mul] at hRounded
    have hUnits : units = n * 2 ^ shift :=
      Rounded.eq_of_natCast (by exact_mod_cast hRounded)
    have hSign : (ofRatio false n 1).sign = 1 := by
      unfold sign
      rw [hNegative, if_neg Bool.false_ne_true]
    rw [value_eq_sign_mul, hSign, hMagnitude, hUnits, hPower, one_mul]
    push_cast
    rw [mul_inv_cancel_right₀ (by positivity)]

end Binary64

end SchemaLang
