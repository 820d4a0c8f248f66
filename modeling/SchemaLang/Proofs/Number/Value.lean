import Mathlib.Algebra.Order.Field.Basic
import Mathlib.Data.Rat.Cast.Order
import Mathlib.Tactic.Ring
import SchemaLang.Number.Numeral

/-
  The rational numbers that numbers of documents stand for.

  Main declarations:
    * `Binary64.value` and `Numeral.value`
    * `Binary64.value_of_integer?`
    * `Numeral.exists_ofBinary64?`
-/

namespace SchemaLang

------------------------------------------------------------
-- Binary Floating Point
------------------------------------------------------------

namespace Binary64

/- The sign as a factor. -/
def sign
    (x : Binary64) : ℚ :=
  if x.negative then -1 else 1

/- The value of a finite number. -/
def value
    (x : Binary64) : ℚ :=
  x.sign * x.significand * 2 ^ x.scale

/- The other sign gives the other value. -/
theorem value_negate
    (x : Binary64) :
    x.negate.value = -x.value := by
  have hSign : x.negate.sign = -x.sign := by
    unfold sign negate
    cases x.negative <;> simp
  unfold value
  rw [hSign, neg_mul, neg_mul]
  rfl

/- A power of two is a quotient of two natural powers. -/
theorem two_zpow_scale
    (x : Binary64) :
    (2 : ℚ) ^ x.scale * 2 ^ (-x.scale).toNat =
      2 ^ x.scale.toNat := by
  have hScale :
      x.scale + ((-x.scale).toNat : Int) =
        (x.scale.toNat : Int) := by
    omega
  rw [← zpow_natCast, ← zpow_natCast, ← hScale,
    zpow_add₀ (by norm_num)]

/- A number that is found to be an integer is that integer. -/
theorem value_of_integer?
    {x : Binary64}
    {n : Int}
    (hInteger : x.integer? = some n) :
    x.value = n := by
  unfold integer? at hInteger
  split at hInteger
  · cases hInteger
  · simp only [Nat.pow_eq] at hInteger
    split at hInteger
    · rename_i hMod
      cases hInteger
      have hDivides :=
        Nat.div_mul_cancel (Nat.dvd_of_mod_eq_zero hMod)
      generalize
        x.significand / 2 ^ (-x.scale).toNat = quotient
          at hDivides ⊢
      have hSignificand :
          (x.significand : ℚ) =
            quotient * 2 ^ (-x.scale).toNat := by
        exact_mod_cast hDivides.symm
      have hScale := two_zpow_scale x
      unfold value sign
      rw [hSignificand]
      push_cast
      rw [← hScale]
      split <;> ring
    · cases hInteger

end Binary64

------------------------------------------------------------
-- Numbers Of Documents
------------------------------------------------------------

namespace Numeral

/- The value of a number of a document. -/
def value : Numeral → ℚ
  | integer value => value
  | real value => value.value

/- A finite number has a numeral, and that has its value. -/
theorem exists_ofBinary64?
    {x : Binary64}
    (hFinite : x.isFinite = true) :
    ∃ numeral,
      ofBinary64? x = some numeral ∧
        numeral.value = x.value := by
  unfold ofBinary64?
  cases hInteger : x.integer? with
  | none =>
      exact ⟨.real x, by simp [hFinite], rfl⟩
  | some n =>
      by_cases hSmall : n.natAbs < integerLimit
      · refine ⟨.integer n, by simp [hSmall], ?_⟩
        exact (Binary64.value_of_integer? hInteger).symm
      · exact ⟨.real x, by simp [hSmall], rfl⟩

end Numeral

end SchemaLang
