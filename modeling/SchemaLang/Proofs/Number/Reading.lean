import Mathlib.Data.List.TakeWhile
import SchemaLang.Number.Layout
import SchemaLang.Proofs.Number.Interval

/-
  The values that texts without an exponent stand for. A text is read
  as its digits, over a power of ten for each digit behind the point,
  with the sign in front of it. What a decimal or an integer is
  written as reads as that decimal or integer.

  Main declarations:
    * `Layout.reading`
    * `Layout.reading_signed_positional`
    * `Layout.reading_toString`
-/

namespace SchemaLang.Layout

------------------------------------------------------------
-- Values Of Texts
------------------------------------------------------------

/- The value of digits with at most one point among them. -/
def pointReading
    (text : List Char) : ℚ :=
  let whole := text.takeWhile (· != '.')
  let fraction := (text.dropWhile (· != '.')).tail
  Nat.ofDigitChars 10 (whole ++ fraction) 0 / 10 ^ fraction.length

/- The value of such a text with or without a minus in front. -/
def reading : List Char → ℚ
  | '-' :: text => -pointReading text
  | text => pointReading text

theorem pointReading_point
    {whole : List Char}
    (hWhole : '.' ∉ whole)
    (fraction : List Char) :
    pointReading (whole ++ '.' :: fraction) =
      Nat.ofDigitChars 10 (whole ++ fraction) 0 /
        10 ^ fraction.length := by
  have hAll : ∀ c ∈ whole, (c != '.') = true := by
    intro c hMem
    exact bne_iff_ne.mpr (ne_of_mem_of_not_mem hMem hWhole)
  unfold pointReading
  rw [List.takeWhile_append_of_pos hAll,
    List.dropWhile_append_of_pos hAll]
  simp

theorem pointReading_whole
    {text : List Char}
    (hText : '.' ∉ text) :
    pointReading text = Nat.ofDigitChars 10 text 0 := by
  have hAll : ∀ c ∈ text, (c != '.') = true := by
    intro c hMem
    exact bne_iff_ne.mpr (ne_of_mem_of_not_mem hMem hText)
  unfold pointReading
  rw [List.takeWhile_eq_self_iff.mpr hAll,
    List.dropWhile_eq_nil_iff.mpr hAll]
  simp

theorem reading_of_not_minus
    {text : List Char}
    (hText : '-' ∉ text) :
    reading text = pointReading text := by
  unfold reading
  split
  · rename_i rest
    exact absurd List.mem_cons_self hText
  · rfl

------------------------------------------------------------
-- Decimals
------------------------------------------------------------

theorem isDigit_of_mem
    {c : Char}
    {n : Nat}
    (hMem : c ∈ Nat.toDigits 10 n) :
    c.isDigit = true :=
  Nat.isDigit_of_mem_toDigits (by norm_num) (by norm_num) hMem

/- Digits are neither the point nor the minus. -/
theorem not_mem_toDigits
    {c : Char}
    (hOther : c.isDigit = false)
    (n : Nat) :
    c ∉ Nat.toDigits 10 n := by
  intro hMem
  have hDigit := isDigit_of_mem hMem
  rw [hOther] at hDigit
  cases hDigit

theorem toList_positional
    (d : Decimal) :
    (positional d).toList =
      if 0 ≤ d.power then
        digits d ++ List.replicate d.power.toNat '0'
      else if leading d < 0 then
        ['0'] ++ '.' ::
          (List.replicate (-(leading d) - 1).toNat '0' ++ digits d)
      else
        (digits d).take (leading d + 1).toNat ++
          '.' :: (digits d).drop (leading d + 1).toNat := by
  unfold positional zeros
  dsimp only
  split
  · simp
  · split <;> simp

/- All characters of a decimal are digits or the point. -/
theorem positional_chars
    {d : Decimal}
    {c : Char}
    (hMem : c ∈ (positional d).toList) :
    c.isDigit = true ∨ c = '.' := by
  have hZero : '0'.isDigit = true := by decide
  rw [toList_positional] at hMem
  split at hMem
  · rcases List.mem_append.mp hMem with hIn | hIn
    · exact .inl (isDigit_of_mem hIn)
    · rw [List.eq_of_mem_replicate hIn]
      exact .inl hZero
  · split at hMem
    · rcases List.mem_append.mp hMem with hIn | hMem
      · rw [List.mem_singleton.mp hIn]
        exact .inl hZero
      · rcases List.mem_cons.mp hMem with rfl | hMem
        · exact .inr rfl
        · rcases List.mem_append.mp hMem with hIn | hIn
          · rw [List.eq_of_mem_replicate hIn]
            exact .inl hZero
          · exact .inl (isDigit_of_mem hIn)
    · rcases List.mem_append.mp hMem with hIn | hMem
      · exact .inl (isDigit_of_mem (List.mem_of_mem_take hIn))
      · rcases List.mem_cons.mp hMem with rfl | hIn
        · exact .inr rfl
        · exact .inl (isDigit_of_mem (List.mem_of_mem_drop hIn))

/- Digits behind a point are worth a power of ten less. -/
theorem pointReading_of_fraction
    {d : Decimal}
    {whole fraction : List Char}
    (hWhole : '.' ∉ whole)
    (hDigits : Nat.ofDigitChars 10 (whole ++ fraction) 0 = d.coefficient)
    (hLength : (fraction.length : Int) = -d.power) :
    pointReading (whole ++ '.' :: fraction) = d.value := by
  have hPower : d.power = -(fraction.length : Int) := by omega
  unfold Decimal.value
  rw [pointReading_point hWhole, hDigits, hPower, zpow_neg,
    zpow_natCast, div_eq_mul_inv]

/- A decimal is read as its value. -/
theorem pointReading_positional
    (d : Decimal) :
    pointReading (positional d).toList = d.value := by
  have hPoint : '.' ∉ digits d := not_mem_toDigits (by decide) _
  have hDigits : Nat.ofDigitChars 10 (digits d) 0 = d.coefficient :=
    Nat.ofDigitChars_ten_toDigits
  rw [toList_positional]
  split
  · rename_i hPower
    have hNat : ((d.power.toNat : Nat) : Int) = d.power := by omega
    have hZeros : '.' ∉ List.replicate d.power.toNat '0' := by
      simp [List.mem_replicate]
    rw [pointReading_whole (List.not_mem_append hPoint hZeros),
      Nat.ofDigitChars_append, hDigits, Nat.ofDigitChars_replicate_zero]
    unfold Decimal.value
    rw [Nat.cast_mul, mul_comm, Nat.cast_pow, ← zpow_natCast, hNat]
    rfl
  · split
    · rename_i hPower hLeading
      -- The zeros behind the point do not change the digits' value.
      refine pointReading_of_fraction
        (show '.' ∉ ['0'] by simp) ?_ ?_
      · simp [Nat.ofDigitChars_cons, Nat.ofDigitChars_append, hDigits]
      · rw [List.length_append, List.length_replicate]
        unfold leading at hLeading ⊢
        omega
    · rename_i hPower hLeading
      refine pointReading_of_fraction
        (fun hIn => hPoint (List.mem_of_mem_take hIn)) ?_ ?_
      · rw [List.take_append_drop, hDigits]
      · rw [List.length_drop]
        unfold leading at hLeading ⊢
        omega

/- A decimal behind the sign of a number is read with that sign. -/
theorem reading_signed_positional
    (x : Binary64)
    (d : Decimal) :
    reading (sign x ++ positional d).toList = x.sign * d.value := by
  unfold sign Binary64.sign
  rw [← pointReading_positional]
  cases x.negative with
  | true => simp [reading]
  | false =>
      have hMinus : '-' ∉ (positional d).toList := by
        intro hMem
        rcases positional_chars hMem with hDigit | hPoint
        · cases hDigit
        · cases hPoint
      simp [reading_of_not_minus hMinus]

------------------------------------------------------------
-- Integers
------------------------------------------------------------

theorem toList_toString
    (n : Int) :
    (toString n).toList =
      if 0 ≤ n then Nat.toDigits 10 n.toNat
      else '-' :: Nat.toDigits 10 (-n).toNat := by
  rw [Int.toString_eq_repr, Int.repr_eq_if]
  split <;> simp

/- An integer is read as itself. -/
theorem reading_toString
    (n : Int) :
    reading (toString n).toList = n := by
  have hDigits : ∀ count : Nat,
      pointReading (Nat.toDigits 10 count) = count := by
    intro count
    rw [pointReading_whole (not_mem_toDigits (by decide) _),
      Nat.ofDigitChars_ten_toDigits]
  rw [toList_toString]
  split
  · rename_i hSign
    rw [reading_of_not_minus (not_mem_toDigits (by decide) _), hDigits]
    exact_mod_cast Int.toNat_of_nonneg hSign
  · rename_i hSign
    have hNat : ((-n).toNat : Int) = -n := by omega
    have hCast : ((-n).toNat : ℚ) = -n := by exact_mod_cast hNat
    rw [reading, hDigits, hCast, neg_neg]

theorem toString_injective :
    Function.Injective (toString : Int → String) := by
  intro m n hText
  have hValue : (m : ℚ) = n := by
    rw [← reading_toString, hText, reading_toString]
  exact_mod_cast hValue

/- All characters of an integer are digits or the minus. -/
theorem toString_chars
    {n : Int}
    {c : Char}
    (hMem : c ∈ (toString n).toList) :
    c.isDigit = true ∨ c = '-' := by
  rw [toList_toString] at hMem
  split at hMem
  · exact .inl (isDigit_of_mem hMem)
  · rcases List.mem_cons.mp hMem with rfl | hIn
    · exact .inr rfl
    · exact .inl (isDigit_of_mem hIn)

end SchemaLang.Layout
