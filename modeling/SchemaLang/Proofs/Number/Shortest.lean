import Mathlib.Data.Nat.Log
import SchemaLang.Proofs.Number.Interval

/-
  The decimal that is taken for a number reads back as it. Grids of one
  to seventeen digits are tried, and on the last of them the distance
  of two points is less than that of two numbers, so that one of the
  two points next to the value reads back.

  Main declarations:
    * `Decimal.Target.ten_zpow_firstPower_le`
    * `Decimal.Target.holds_search`
    * `Binary64.exists_pick?`
    * `Binary64.reads_shortest`
-/

namespace SchemaLang

namespace Decimal

------------------------------------------------------------
-- Powers Of Ten And Two
------------------------------------------------------------

/- Ten is not more than two to the power of `196 / 59`. -/
theorem ten_pow_le_two_pow
    {decimal binary : Nat}
    (hSlope : 196 * decimal ≤ 59 * binary) :
    10 ^ decimal ≤ 2 ^ binary := by
  have hBase : 10 ^ 59 ≤ 2 ^ 196 := by norm_num
  refine le_of_pow_le_pow_left₀ (show (59 : Nat) ≠ 0 by decide)
    (Nat.zero_le _) ?_
  calc
    (10 ^ decimal) ^ 59 = (10 ^ 59) ^ decimal := by
      rw [← pow_mul, ← pow_mul, Nat.mul_comm]
    _ ≤ (2 ^ 196) ^ decimal := Nat.pow_le_pow_left hBase decimal
    _ = 2 ^ (196 * decimal) := by rw [← pow_mul]
    _ ≤ 2 ^ (59 * binary) := Nat.pow_le_pow_right (by decide) hSlope
    _ = (2 ^ binary) ^ 59 := by rw [← pow_mul, Nat.mul_comm]

/- Two is not more than ten to the power of `28 / 93`. -/
theorem two_pow_le_ten_pow
    {decimal binary : Nat}
    (hSlope : 28 * binary ≤ 93 * decimal) :
    2 ^ binary ≤ 10 ^ decimal := by
  have hBase : 2 ^ 93 ≤ 10 ^ 28 := by norm_num
  refine le_of_pow_le_pow_left₀ (show (93 : Nat) ≠ 0 by decide)
    (Nat.zero_le _) ?_
  calc
    (2 ^ binary) ^ 93 = (2 ^ 93) ^ binary := by
      rw [← pow_mul, ← pow_mul, Nat.mul_comm]
    _ ≤ (10 ^ 28) ^ binary := Nat.pow_le_pow_left hBase binary
    _ = 10 ^ (28 * binary) := by rw [← pow_mul]
    _ ≤ 10 ^ (93 * decimal) := Nat.pow_le_pow_right (by decide) hSlope
    _ = (10 ^ decimal) ^ 93 := by rw [← pow_mul, Nat.mul_comm]

/- The guess of a first power is not too great. -/
theorem ten_zpow_guess_le
    {binary : Int}
    (hLow : -2000 ≤ binary)
    (hHigh : binary ≤ 2000) :
    (10 : ℚ) ^ ((binary * 30103).fdiv 100000 - 1) ≤ 2 ^ binary := by
  rw [Int.fdiv_eq_ediv_of_nonneg _ (by decide)]
  generalize hGuess : binary * 30103 / 100000 - 1 = guess
  rcases Int.le_total 0 guess with hUp | hDown
  · obtain ⟨decimal, rfl⟩ := Int.eq_ofNat_of_zero_le hUp
    obtain ⟨natural, rfl⟩ :=
      Int.eq_ofNat_of_zero_le (show 0 ≤ binary by omega)
    rw [zpow_natCast, zpow_natCast]
    exact_mod_cast ten_pow_le_two_pow (by omega)
  · rcases Int.le_total 0 binary with hWhole | hPart
    · calc
        (10 : ℚ) ^ guess ≤ 1 := zpow_le_one_of_nonpos₀ (by norm_num) hDown
        _ ≤ 2 ^ binary := one_le_zpow₀ (by norm_num) hWhole
    · obtain ⟨decimal, hDecimal⟩ :=
        Int.eq_ofNat_of_zero_le (show 0 ≤ -guess by omega)
      obtain ⟨natural, hNatural⟩ :=
        Int.eq_ofNat_of_zero_le (show 0 ≤ -binary by omega)
      have hPowers : (2 : ℚ) ^ natural ≤ 10 ^ decimal := by
        exact_mod_cast two_pow_le_ten_pow (by omega)
      rw [show guess = -(decimal : Int) by omega,
        show binary = -(natural : Int) by omega, zpow_neg, zpow_neg,
        zpow_natCast, zpow_natCast]
      exact inv_anti₀ (by positivity) hPowers

------------------------------------------------------------
-- The First Power
------------------------------------------------------------

namespace Target

variable {target : Target}

/- No step up passes the value. -/
theorem ten_zpow_climb_le
    (steps : Nat)
    {power : Int}
    (hPower : (10 : ℚ) ^ power ≤ target.value) :
    (10 : ℚ) ^ target.climb steps power ≤ target.value := by
  induction steps generalizing power with
  | zero => exact hPower
  | succ steps ih =>
      rw [climb]
      split
      · exact hPower
      · rename_i hReached
        apply ih
        have hPoint : (1 : ℚ) ≤ target.below (power + 1) := by
          exact_mod_cast Nat.one_le_iff_ne_zero.mpr hReached
        calc
          (10 : ℚ) ^ (power + 1) ≤
              target.below (power + 1) * 10 ^ (power + 1) :=
            le_mul_of_one_le_left (by positivity) hPoint
          _ ≤ target.value := target.below_le (power + 1)

/- The search starts at a power of ten that is not above the value. -/
theorem ten_zpow_firstPower_le
    (hUnits : target.units ≠ 0)
    (hSmall : target.units < 2 ^ 100)
    (hLow : -1900 ≤ target.scale)
    (hHigh : target.scale ≤ 1900) :
    (10 : ℚ) ^ target.firstPower ≤ target.value := by
  have hLog : Nat.log2 target.units < 100 :=
    (Nat.log2_lt hUnits).mpr hSmall
  have hBinary :
      (2 : ℚ) ^ ((Nat.log2 target.units : Int) + target.scale) ≤
        target.value := by
    rw [zpow_add₀ (by norm_num), zpow_natCast, value]
    have hPower : (2 : ℚ) ^ Nat.log2 target.units ≤ target.units := by
      exact_mod_cast Nat.log2_self_le hUnits
    gcongr
  apply ten_zpow_climb_le
  exact (ten_zpow_guess_le (by omega) (by omega)).trans hBinary

------------------------------------------------------------
-- The Search
------------------------------------------------------------

variable {tie : Tie}

/- A point that is picked reads back. -/
theorem holds_of_pick?
    {power : Int}
    {c : Nat}
    (hPick : target.pick? tie power = some c) :
    target.Holds (c * 10 ^ power) := by
  rw [← admits_iff]
  unfold pick? at hPick
  dsimp only at hPick
  generalize hPoint : target.below power = point at hPick
  cases hBelow : target.admits power point with
  | false =>
      cases hAbove : target.admits power (point + 1) with
      | false => simp [hBelow, hAbove] at hPick
      | true =>
          simp only [hBelow, hAbove, Option.some.injEq] at hPick
          rw [← hPick, hAbove]
  | true =>
      cases hAbove : target.admits power (point + 1) with
      | false =>
          simp only [hBelow, hAbove, Option.some.injEq] at hPick
          rw [← hPick, hBelow]
      | true =>
          have hEither : c = point ∨ c = point + 1 := by
            simp only [hBelow, hAbove] at hPick
            split at hPick
            · exact .inl (Option.some.inj hPick).symm
            · split at hPick
              · exact .inr (Option.some.inj hPick).symm
              · cases tie with
                | up => exact .inr (Option.some.inj hPick).symm
                | even =>
                    have hEven := Option.some.inj hPick
                    omega
          rcases hEither with rfl | rfl
          · exact hBelow
          · exact hAbove

/- If no point is picked, neither of the two next to it reads back. -/
theorem not_holds_of_pick?
    {power : Int}
    (hPick : target.pick? tie power = none) :
    ¬ target.Holds (target.below power * 10 ^ power) ∧
      ¬ target.Holds (((target.below power : ℚ) + 1) * 10 ^ power) := by
  have hNext :
      ((target.below power : ℚ) + 1) = (target.below power + 1 : Nat) := by
    push_cast
    rfl
  rw [hNext, ← admits_iff, ← admits_iff]
  unfold pick? at hPick
  dsimp only at hPick
  cases hBelow : target.admits power (target.below power) with
  | false =>
      cases hAbove : target.admits power (target.below power + 1) with
      | false => exact ⟨Bool.false_ne_true, Bool.false_ne_true⟩
      | true => simp [hBelow, hAbove] at hPick
  | true =>
      cases hAbove : target.admits power (target.below power + 1) with
      | false => simp [hBelow, hAbove] at hPick
      | true =>
          simp only [hBelow, hAbove] at hPick
          split at hPick
          · cases hPick
          · split at hPick
            · cases hPick
            · cases tie <;> cases hPick

/- What is found on some grid reads back. -/
theorem holds_search
    {steps : Nat}
    {power : Int}
    (hFound : ∃ step < steps, target.pick? tie (power - step) ≠ none) :
    target.Holds (target.search tie steps power).value := by
  induction steps generalizing power with
  | zero =>
      rcases hFound with ⟨step, hStep, -⟩
      omega
  | succ steps ih =>
      rw [search]
      cases hPick : target.pick? tie power with
      | some c => exact holds_of_pick? hPick
      | none =>
          apply ih
          rcases hFound with ⟨step, hStep, hSome⟩
          cases step with
          | zero =>
              rw [Nat.cast_zero, Int.sub_zero] at hSome
              exact absurd hPick hSome
          | succ step =>
              refine ⟨step, by omega, ?_⟩
              rw [show power - 1 - step = power - (step + 1 : Nat) by omega]
              exact hSome

end Target

/- Tens that are divided out change no value. -/
theorem value_strip
    (steps : Nat)
    (d : Decimal) :
    (strip steps d).value = d.value := by
  induction steps generalizing d with
  | zero => rfl
  | succ steps ih =>
      rw [strip]
      split
      · rename_i hTens
        have hWhole : d.coefficient / 10 * 10 = d.coefficient :=
          Nat.div_mul_cancel (Nat.dvd_of_mod_eq_zero hTens)
        have hCoefficient :
            (d.coefficient : ℚ) = (d.coefficient / 10 : Nat) * 10 := by
          exact_mod_cast hWhole.symm
        rw [ih]
        unfold value
        rw [hCoefficient, zpow_add_one₀ (by norm_num)]
        ring
      · rfl

end Decimal

------------------------------------------------------------
-- Numbers
------------------------------------------------------------

namespace Binary64

open Decimal (Target)

variable {x : Binary64}

theorem value_ofBinary64
    (x : Binary64) :
    (Target.ofBinary64 x).value = x.magnitude := by
  rw [magnitude_eq]
  unfold Target.value Target.ofBinary64 quarter
  push_cast
  rfl

/-
  If points are nearer to each other than numbers are, then one of the
  two points next to a number reads back as it.
-/
theorem exists_pick?
    {power : Int}
    (hPositive : 0 < x.significand)
    (hFine : 10 ^ 16 * (10 : ℚ) ^ power ≤ x.magnitude)
    (tie : Decimal.Tie) :
    (Target.ofBinary64 x).pick? tie power ≠ none := by
  intro hPick
  have hNeither := Target.not_holds_of_pick? hPick
  have hBelow := (Target.ofBinary64 x).below_le power
  have hAbove := (Target.ofBinary64 x).lt_below power
  rw [value_ofBinary64] at hBelow hAbove
  have hLow := le_of_not_reads hPositive hBelow hNeither.1
  have hHigh := ge_of_not_reads hPositive hAbove.le hNeither.2
  have hQuarter := x.quarter_pos
  rw [magnitude_eq] at hFine
  rcases x.gap_cases with ⟨hGap, hFraction, hExponent⟩ | ⟨hGap, -⟩
  · have hSignificand : (x.significand : ℚ) = 2 ^ 52 := by
      unfold significand
      rw [if_neg (by omega), hFraction, Nat.pow_eq]
      norm_num
    rw [hGap] at hLow
    push_cast at hLow
    rw [hSignificand] at hLow hHigh hFine
    nlinarith
  · have hSignificand : (x.significand : ℚ) < 2 ^ 53 := by
      exact_mod_cast x.significand_lt
    rw [hGap] at hLow
    push_cast at hLow
    nlinarith

/- The shortest decimal reads back. -/
theorem reads_shortest
    (hFinite : x.isFinite = true)
    (hPositive : 0 < x.significand)
    (tie : Decimal.Tie) :
    x.Reads (Decimal.shortest tie x).value := by
  have hSignificand := x.significand_lt
  have hExponent : x.exponent.val ≤ 2046 := by
    have hBound := x.exponent.isLt
    simp only [isFinite, bne_iff_ne, ne_eq] at hFinite
    omega
  have hUnits : (Target.ofBinary64 x).units = 4 * x.significand := rfl
  have hScale : (Target.ofBinary64 x).scale = x.scale - 2 := rfl
  have hFirst :
      (10 : ℚ) ^ (Target.ofBinary64 x).firstPower ≤ x.magnitude := by
    rw [← value_ofBinary64]
    apply Target.ten_zpow_firstPower_le
    · omega
    · omega
    · rw [hScale, scale]
      omega
    · rw [hScale, scale]
      omega
  unfold Decimal.shortest
  dsimp only
  rw [Decimal.value_strip]
  apply Target.holds_search
  refine ⟨16, by decide, exists_pick? hPositive ?_ tie⟩
  calc
    10 ^ 16 * (10 : ℚ) ^ ((Target.ofBinary64 x).firstPower - (16 : Nat)) =
        10 ^ (Target.ofBinary64 x).firstPower := by
      rw [← zpow_natCast, ← zpow_add₀ (by norm_num)]
      congr 1
      omega
    _ ≤ x.magnitude := hFirst

end Binary64

end SchemaLang
