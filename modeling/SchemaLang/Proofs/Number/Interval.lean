import Mathlib.Algebra.Order.Field.Power
import Mathlib.Tactic.Linarith
import Mathlib.Tactic.NormNum
import Mathlib.Tactic.Positivity
import Mathlib.Tactic.Ring
import SchemaLang.Number.Shortest
import SchemaLang.Proofs.Number.Value

/-
  The values that read back as a number: those between the midpoints to
  the numbers next to it. All values that read back as the smaller of
  two numbers lie below those that read back as the greater, so no
  value reads back as two numbers.

  Main declarations:
    * `Decimal.Target.Holds`
    * `Decimal.Target.admits_iff`
    * `Decimal.Target.below_le` and `Decimal.Target.lt_below`
    * `Binary64.reads_lt_of_significand` and `Binary64.reads_lt_of_scale`
    * `Binary64.fields_eq_of_reads`
-/

namespace SchemaLang

/- A power is a quotient of two natural powers. -/
theorem zpow_mul_pow_toNat
    {base : ℚ}
    (hBase : base ≠ 0)
    (power : Int) :
    base ^ power * base ^ (-power).toNat = base ^ power.toNat := by
  rw [← zpow_natCast, ← zpow_natCast, ← zpow_add₀ hBase]
  congr 1
  omega

------------------------------------------------------------
-- Targets
------------------------------------------------------------

namespace Decimal

/- The value of a decimal. -/
def value
    (d : Decimal) : ℚ :=
  d.coefficient * 10 ^ d.power

namespace Target

/- The value that a decimal is searched for. -/
def value
    (target : Target) : ℚ :=
  target.units * 2 ^ target.scale

/- A value lies between the bounds; it may be one if they count. -/
def Holds
    (target : Target)
    (v : ℚ) : Prop :=
  if target.closed then
    target.low * 2 ^ target.scale ≤ v ∧ v ≤ target.high * 2 ^ target.scale
  else
    target.low * 2 ^ target.scale < v ∧ v < target.high * 2 ^ target.scale

section

variable (target : Target)
variable (power : Int)
variable (c n : Nat)

/- Points and units over a common denominator are naturals. -/
theorem lt_iff_factors :
    ((c : ℚ) * 10 ^ power < n * 2 ^ target.scale ↔
        c * target.pointFactor power < n * target.unitFactor power) ∧
      ((n : ℚ) * 2 ^ target.scale < c * 10 ^ power ↔
        n * target.unitFactor power < c * target.pointFactor power) := by
  have hTen := zpow_mul_pow_toNat (show (10 : ℚ) ≠ 0 by norm_num) power
  have hTwo :=
    zpow_mul_pow_toNat (show (2 : ℚ) ≠ 0 by norm_num) target.scale
  have hPositive :
      (0 : ℚ) < 10 ^ (-power).toNat * 2 ^ (-target.scale).toNat := by
    positivity
  have hPoint :
      (c : ℚ) * 10 ^ power *
          (10 ^ (-power).toNat * 2 ^ (-target.scale).toNat) =
        (c * target.pointFactor power : Nat) := by
    unfold pointFactor
    push_cast [Nat.pow_eq]
    rw [← hTen]
    ring
  have hUnit :
      (n : ℚ) * 2 ^ target.scale *
          (10 ^ (-power).toNat * 2 ^ (-target.scale).toNat) =
        (n * target.unitFactor power : Nat) := by
    unfold unitFactor
    push_cast [Nat.pow_eq]
    rw [← hTwo]
    ring
  constructor
  · rw [← mul_lt_mul_iff_of_pos_right hPositive, hPoint, hUnit,
      Nat.cast_lt]
  · rw [← mul_lt_mul_iff_of_pos_right hPositive, hPoint, hUnit,
      Nat.cast_lt]

/- A point is found to read back exactly if its value does. -/
theorem admits_iff :
    target.admits power c = true ↔ target.Holds (c * 10 ^ power) := by
  have hLow := lt_iff_factors target power c target.low
  have hHigh := lt_iff_factors target power c target.high
  unfold admits Holds
  cases target.closed with
  | true =>
      simp only [if_true, Bool.and_eq_true, decide_eq_true_eq]
      rw [← Nat.not_lt, ← Nat.not_lt, ← not_lt, ← not_lt, hLow.1, hHigh.2]
  | false =>
      simp only [Bool.false_eq_true, if_false, Bool.and_eq_true,
        decide_eq_true_eq]
      rw [hLow.2, hHigh.1]

theorem pointFactor_pos :
    0 < target.pointFactor power := by
  unfold pointFactor
  simp only [Nat.pow_eq]
  positivity

/- The point below a value is not above it, and the next one is. -/
theorem below_le :
    (target.below power : ℚ) * 10 ^ power ≤ target.value := by
  rw [value, ← not_lt, (lt_iff_factors target power _ _).2, Nat.not_lt]
  exact Nat.div_mul_le_self _ _

theorem lt_below :
    target.value < ((target.below power : ℚ) + 1) * 10 ^ power := by
  have hNext :=
    Nat.lt_mul_div_succ (target.units * target.unitFactor power)
      (target.pointFactor_pos power)
  rw [Nat.mul_comm (target.pointFactor power)] at hNext
  have hLess := (lt_iff_factors target power _ _).2.mpr hNext
  push_cast at hLess
  exact hLess

end

end Target

end Decimal

------------------------------------------------------------
-- Numbers
------------------------------------------------------------

namespace Binary64

open Decimal (Target)

variable {x y : Binary64}

/- The value without its sign. -/
def magnitude
    (x : Binary64) : ℚ :=
  x.significand * 2 ^ x.scale

/- A value without a sign reads back as a number. -/
def Reads
    (x : Binary64)
    (v : ℚ) : Prop :=
  (Target.ofBinary64 x).Holds v

/- A quarter of the distance to the next number. -/
def quarter
    (x : Binary64) : ℚ :=
  2 ^ (x.scale - 2)

/- How many quarters below the value the lower bound is. -/
def gap
    (x : Binary64) : Nat :=
  if x.fraction.val == 0 && 1 < x.exponent.val then 1 else 2

theorem quarter_pos
    (x : Binary64) :
    0 < x.quarter := by
  unfold quarter
  positivity

theorem magnitude_eq
    (x : Binary64) :
    x.magnitude = 4 * x.significand * x.quarter := by
  unfold magnitude quarter
  rw [zpow_sub₀ (by norm_num)]
  ring

theorem significand_lt
    (x : Binary64) :
    x.significand < 2 ^ 53 := by
  have hFraction := x.fraction.isLt
  unfold significand
  split
  · omega
  · rw [Nat.pow_eq]
    omega

/-
  What reads back as a number is between the midpoints to the numbers
  next to it; a midpoint reads back as the even one of its two.
-/
theorem reads_iff
    (hPositive : 0 < x.significand)
    (v : ℚ) :
    x.Reads v ↔
      if x.significand % 2 = 0 then
        (4 * x.significand - x.gap) * x.quarter ≤ v ∧
          v ≤ (4 * x.significand + 2) * x.quarter
      else
        (4 * x.significand - x.gap) * x.quarter < v ∧
          v < (4 * x.significand + 2) * x.quarter := by
  have hLow :
      ((Target.ofBinary64 x).low : ℚ) = 4 * x.significand - x.gap := by
    unfold Target.ofBinary64 gap
    dsimp only
    split
    · rw [Nat.cast_sub (by omega)]
      push_cast
      rfl
    · rw [Nat.cast_sub (by omega)]
      push_cast
      rfl
  have hHigh :
      ((Target.ofBinary64 x).high : ℚ) = 4 * x.significand + 2 := by
    unfold Target.ofBinary64
    push_cast
    rfl
  have hClosed :
      (Target.ofBinary64 x).closed = true ↔ x.significand % 2 = 0 :=
    beq_iff_eq
  unfold Reads Target.Holds
  rw [hLow, hHigh]
  by_cases hEven : x.significand % 2 = 0
  · rw [if_pos (hClosed.mpr hEven), if_pos hEven]
    rfl
  · rw [if_neg (hClosed.not.mpr hEven), if_neg hEven]
    rfl

/- The bounds are never exceeded. -/
theorem Reads.bounds
    {v : ℚ}
    (hPositive : 0 < x.significand)
    (hReads : x.Reads v) :
    (4 * x.significand - x.gap) * x.quarter ≤ v ∧
      v ≤ (4 * x.significand + 2) * x.quarter := by
  rw [reads_iff hPositive] at hReads
  split at hReads
  · exact hReads
  · exact ⟨hReads.1.le, hReads.2.le⟩

/- A number with an odd significand does not have its bounds. -/
theorem Reads.strict
    {v : ℚ}
    (hOdd : x.significand % 2 = 1)
    (hReads : x.Reads v) :
    (4 * x.significand - x.gap) * x.quarter < v ∧
      v < (4 * x.significand + 2) * x.quarter := by
  rw [reads_iff (by omega), if_neg (by omega)] at hReads
  exact hReads

theorem gap_cases
    (x : Binary64) :
    x.gap = 1 ∧ x.fraction.val = 0 ∧ 1 < x.exponent.val ∨
      x.gap = 2 ∧ (x.fraction.val = 0 → x.exponent.val ≤ 1) := by
  unfold gap
  split
  · rename_i hNarrow
    simp only [Bool.and_eq_true, beq_iff_eq, decide_eq_true_eq] at hNarrow
    exact .inl ⟨rfl, hNarrow⟩
  · rename_i hWide
    simp only [Bool.and_eq_true, beq_iff_eq, decide_eq_true_eq, not_and,
      Nat.not_lt] at hWide
    exact .inr ⟨rfl, hWide⟩

/- A number is between its bounds. -/
theorem magnitude_bounds
    (x : Binary64) :
    (4 * x.significand - x.gap) * x.quarter < x.magnitude ∧
      x.magnitude < (4 * x.significand + 2) * x.quarter := by
  have hQuarter := x.quarter_pos
  have hGap : (0 : ℚ) < x.gap := by
    rcases x.gap_cases with ⟨hGap, -⟩ | ⟨hGap, -⟩ <;> rw [hGap] <;>
      norm_num
  rw [magnitude_eq]
  constructor <;> nlinarith

/- A number reads back as itself. -/
theorem reads_magnitude
    (hPositive : 0 < x.significand) :
    x.Reads x.magnitude := by
  have hBounds := x.magnitude_bounds
  rw [reads_iff hPositive]
  split
  · exact ⟨hBounds.1.le, hBounds.2.le⟩
  · exact hBounds

/- What is below a number and does not read back is below the bound. -/
theorem le_of_not_reads
    {v : ℚ}
    (hPositive : 0 < x.significand)
    (hBelow : v ≤ x.magnitude)
    (hNot : ¬ x.Reads v) :
    v ≤ (4 * x.significand - x.gap) * x.quarter := by
  have hBounds := x.magnitude_bounds
  by_contra hAbove
  rw [not_le] at hAbove
  apply hNot
  rw [reads_iff hPositive]
  split
  · exact ⟨hAbove.le, hBelow.trans hBounds.2.le⟩
  · exact ⟨hAbove, hBelow.trans_lt hBounds.2⟩

/- What is above it and does not read back is above the other one. -/
theorem ge_of_not_reads
    {v : ℚ}
    (hPositive : 0 < x.significand)
    (hAbove : x.magnitude ≤ v)
    (hNot : ¬ x.Reads v) :
    (4 * x.significand + 2) * x.quarter ≤ v := by
  have hBounds := x.magnitude_bounds
  by_contra hBelow
  rw [not_le] at hBelow
  apply hNot
  rw [reads_iff hPositive]
  split
  · exact ⟨hBounds.1.le.trans hAbove, hBelow.le⟩
  · exact ⟨hBounds.1.trans_le hAbove, hBelow⟩

------------------------------------------------------------
-- Order
------------------------------------------------------------

/- Among numbers of one scale, greater significands come later. -/
theorem reads_lt_of_significand
    {v w : ℚ}
    (hScale : x.scale = y.scale)
    (hPositive : 0 < x.significand)
    (hLess : x.significand < y.significand)
    (hFirst : x.Reads v)
    (hSecond : y.Reads w) :
    v < w := by
  have hWide : y.gap = 2 := by
    rcases y.gap_cases with ⟨-, hFraction, hExponent⟩ | ⟨hGap, -⟩
    · -- The smallest number of a scale has none below it there.
      unfold scale at hScale
      unfold significand at hLess
      rw [if_neg (by omega), if_neg (by omega)] at hLess
      omega
    · exact hGap
  have hQuarter : x.quarter = y.quarter := by
    unfold quarter
    rw [hScale]
  have hUnit := y.quarter_pos
  have hUpper := (hFirst.bounds hPositive).2
  have hLower := (hSecond.bounds (by omega)).1
  rw [hQuarter] at hUpper
  rw [hWide] at hLower
  push_cast at hLower
  rcases Nat.lt_or_eq_of_le hLess with hFar | hNext
  · have hApart : (x.significand : ℚ) + 2 ≤ y.significand := by
      exact_mod_cast hFar
    nlinarith
  · -- One of two neighbours is odd and leaves the midpoint out.
    have hApart : (x.significand : ℚ) + 1 = y.significand := by
      exact_mod_cast hNext
    rcases Nat.mod_two_eq_zero_or_one x.significand with hEven | hOdd
    · have hStrict := (hSecond.strict (by omega)).1
      rw [hWide] at hStrict
      push_cast at hStrict
      rw [← hApart] at hStrict
      nlinarith
    · have hStrict := (hFirst.strict hOdd).2
      rw [hQuarter] at hStrict
      rw [← hApart] at hLower
      nlinarith

/- Numbers of a greater scale come later. -/
theorem reads_lt_of_scale
    {v w : ℚ}
    (hScale : x.scale < y.scale)
    (hPositive : 0 < x.significand)
    (hFirst : x.Reads v)
    (hSecond : y.Reads w) :
    v < w := by
  have hExponent : 1 < y.exponent.val := by
    unfold scale at hScale
    omega
  have hSignificand : y.significand = y.fraction.val + 2 ^ 52 := by
    unfold significand
    rw [if_neg (by omega), Nat.pow_eq]
  have hQuarter : 2 * x.quarter ≤ y.quarter := by
    unfold quarter
    rw [← zpow_one_add₀ (by norm_num)]
    exact zpow_le_zpow_right₀ (by norm_num) (by omega)
  have hUnit := x.quarter_pos
  have hFront : (2 ^ 54 - 1 : ℚ) ≤ 4 * y.significand - y.gap := by
    rw [hSignificand]
    rcases y.gap_cases with ⟨hGap, hFraction, -⟩ | ⟨hGap, hFraction⟩
    · rw [hGap, hFraction]
      norm_num
    · have hPast : (1 : ℚ) ≤ y.fraction.val := by
        exact_mod_cast (show 1 ≤ y.fraction.val by omega)
      rw [hGap]
      push_cast
      linarith
  have hLater : (2 ^ 55 - 2) * x.quarter ≤ w := by
    have hLower := (hSecond.bounds (by omega)).1
    nlinarith
  have hEarlier : v < (2 ^ 55 - 2) * x.quarter := by
    rcases Nat.mod_two_eq_zero_or_one x.significand with hEven | hOdd
    · have hUpper := (hFirst.bounds hPositive).2
      have hSmall : (x.significand : ℚ) + 2 ≤ 2 ^ 53 := by
        exact_mod_cast (show x.significand + 2 ≤ 2 ^ 53 by
          have hBound := x.significand_lt
          omega)
      nlinarith
    · have hUpper := (hFirst.strict hOdd).2
      have hSmall : (x.significand : ℚ) + 1 ≤ 2 ^ 53 := by
        exact_mod_cast x.significand_lt
      nlinarith
  exact hEarlier.trans_le hLater

/- No value reads back as two numbers. -/
theorem fields_eq_of_reads
    {v : ℚ}
    (hPositive : 0 < x.significand)
    (hPositive' : 0 < y.significand)
    (hFirst : x.Reads v)
    (hSecond : y.Reads v) :
    x.exponent = y.exponent ∧ x.fraction = y.fraction := by
  have hScale : x.scale = y.scale := by
    rcases lt_trichotomy x.scale y.scale with hLess | hSame | hMore
    · exact absurd (reads_lt_of_scale hLess hPositive hFirst hSecond)
        (lt_irrefl v)
    · exact hSame
    · exact absurd (reads_lt_of_scale hMore hPositive' hSecond hFirst)
        (lt_irrefl v)
  have hSignificand : x.significand = y.significand := by
    rcases Nat.lt_trichotomy x.significand y.significand with
      hLess | hSame | hMore
    · exact absurd
        (reads_lt_of_significand hScale hPositive hLess hFirst hSecond)
        (lt_irrefl v)
    · exact hSame
    · exact absurd
        (reads_lt_of_significand hScale.symm hPositive' hMore hSecond
          hFirst)
        (lt_irrefl v)
  have hFraction := x.fraction.isLt
  have hFraction' := y.fraction.isLt
  unfold scale at hScale
  unfold significand at hSignificand
  rw [Nat.pow_eq] at hSignificand
  rw [Fin.ext_iff, Fin.ext_iff]
  split at hSignificand <;> split at hSignificand <;> omega

end Binary64

end SchemaLang
