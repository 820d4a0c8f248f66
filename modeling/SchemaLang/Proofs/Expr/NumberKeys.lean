import SchemaLang.Proofs.Expr.Structure
import SchemaLang.Proofs.Number.Reading
import SchemaLang.Proofs.Number.Shortest

/-
  Which numbers are one key. A whole number below `10 ^ 21` is written
  as an integer of 64 bits, so all those that are too great for that
  are written as the greatest one, and likewise on the other side. All
  other numbers have texts of their own: the text of a finite number
  reads back as that number, and no text reads back as two.

  Main declarations:
    * `Binary64.isBeyond`
    * `Binary64.exists_reading`
    * `Binary64.keyText_eq_iff`
    * `Key.number_identity_iff`
-/

namespace SchemaLang

namespace Binary64

open Layout

variable {x y : Binary64}

------------------------------------------------------------
-- Numbers Beyond 64 Bits
------------------------------------------------------------

/-
  The number is written as an integer, and its text is the integer of
  64 bits that is farthest from zero.
-/
def isBeyond
    (x : Binary64) : Bool :=
  match x.integer? with
  | some n => 2 ^ 63 ≤ n.natAbs && n.natAbs < 10 ^ 21
  | none => false

/- The number that the texts of all those numbers read back as. -/
def limit
    (negative : Bool) : Binary64 :=
  ofRatio negative (2 ^ 63) 1

/- The number that its text as a key reads back as. -/
def held
    (x : Binary64) : Binary64 :=
  if x.isBeyond then limit x.negative else x

theorem eq_of_fields
    (hNegative : x.negative = y.negative)
    (hFields : x.exponent = y.exponent ∧ x.fraction = y.fraction) :
    x = y := by
  rcases x with ⟨negative, exponent, fraction⟩
  rcases y with ⟨negative', exponent', fraction'⟩
  obtain ⟨rfl, rfl⟩ := hFields
  rw [show negative = negative' from hNegative]

theorem isBeyond_limit
    (negative : Bool) :
    (limit negative).isBeyond = true := by
  cases negative <;> decide

theorem negative_held :
    x.held.negative = x.negative := by
  unfold held
  split <;> rfl

theorem significand_held
    (hPositive : 0 < x.significand) :
    0 < x.held.significand := by
  unfold held
  split
  · exact Nat.succ_pos _
  · exact hPositive

/- Both the greatest integer of 64 bits and the next one read as it. -/
theorem reads_limit
    {negative : Bool}
    {v : ℚ}
    (hLow : 2 ^ 63 - 1 ≤ v)
    (hHigh : v ≤ 2 ^ 63) :
    (limit negative).Reads v := by
  have hSignificand : (limit negative).significand = 2 ^ 52 := by
    cases negative <;> decide
  have hScale : (limit negative).scale = 11 := by
    cases negative <;> decide
  have hQuarter : (limit negative).quarter = 512 := by
    unfold quarter
    rw [hScale]
    norm_num
  have hGap : (limit negative).gap = 1 := by
    cases negative <;> decide
  rw [reads_iff (by rw [hSignificand]; norm_num), hSignificand, hQuarter,
    hGap]
  norm_num at hLow hHigh ⊢
  constructor <;> linarith

------------------------------------------------------------
-- Signs And Zeros
------------------------------------------------------------

theorem isZero_iff :
    x.isZero = true ↔ x.significand = 0 := by
  unfold isZero significand
  rw [Nat.pow_eq]
  simp only [Bool.and_eq_true, beq_iff_eq]
  split <;> omega

theorem Reads.pos
    {v : ℚ}
    (hPositive : 0 < x.significand)
    (hReads : x.Reads v) :
    0 < v := by
  have hLow := (hReads.bounds hPositive).1
  have hQuarter := x.quarter_pos
  have hCast : (1 : ℚ) ≤ x.significand := by exact_mod_cast hPositive
  have hGap : (x.gap : ℚ) ≤ 2 := by
    unfold gap
    split <;> norm_num
  nlinarith

/- Positive values with signs are the same only if both parts are. -/
theorem sign_mul_inj
    {v w : ℚ}
    (hFirst : 0 < v)
    (hSecond : 0 < w)
    (hSame : x.sign * v = y.sign * w) :
    x.negative = y.negative ∧ v = w := by
  unfold sign at hSame
  cases hNegative : x.negative <;> cases hNegative' : y.negative <;>
    simp only [hNegative, hNegative', if_true, Bool.false_eq_true,
      if_false] at hSame
  · exact ⟨rfl, by linarith⟩
  · linarith
  · linarith
  · exact ⟨rfl, by linarith⟩

/- A whole number is its magnitude behind its sign. -/
theorem integer_eq_sign_mul
    {n : Int}
    (hInteger : x.integer? = some n) :
    (n : ℚ) = x.sign * x.magnitude := by
  rw [← value_of_integer? hInteger]
  unfold value magnitude
  ring

/- The sign of a whole number other than zero is its own. -/
theorem negative_iff_of_integer?
    {n : Int}
    (hInteger : x.integer? = some n)
    (hOther : n ≠ 0) :
    x.negative = true ↔ n < 0 := by
  have hValue := integer_eq_sign_mul hInteger
  have hMagnitude : 0 ≤ x.magnitude := by
    unfold magnitude
    positivity
  unfold sign at hValue
  cases hSign : x.negative with
  | true =>
      have hBelow : (n : ℚ) ≤ 0 := by
        rw [hValue, if_pos hSign]
        linarith
      have hBelow' : n ≤ 0 := by exact_mod_cast hBelow
      exact iff_of_true rfl (lt_of_le_of_ne hBelow' hOther)
  | false =>
      have hAbove : (0 : ℚ) ≤ n := by
        rw [hValue, if_neg (hSign ▸ Bool.false_ne_true)]
        linarith
      have hAbove' : 0 ≤ n := by exact_mod_cast hAbove
      exact iff_of_false Bool.false_ne_true (not_lt.mpr hAbove')

/- Beyond 64 bits, only the sign of a whole number is kept. -/
theorem saturate_of_integer?
    {n : Int}
    (hInteger : x.integer? = some n)
    (hBeyond : 2 ^ 63 ≤ n.natAbs) :
    saturate n = if x.negative then -2 ^ 63 else 2 ^ 63 - 1 := by
  have hNegative := negative_iff_of_integer? hInteger (by omega)
  unfold saturate
  split
  · rename_i hSign
    have hBelow := hNegative.mp hSign
    omega
  · rename_i hSign
    have hAbove := hNegative.not.mp hSign
    omega

------------------------------------------------------------
-- Texts
------------------------------------------------------------

theorem isFinite_of_integer?
    {n : Int}
    (hInteger : x.integer? = some n) :
    x.isFinite = true := by
  unfold integer? at hInteger
  split at hInteger
  · cases hInteger
  · rename_i hFinite
    simpa using hFinite

theorem keyText_of_integer?
    {n : Int}
    (hInteger : x.integer? = some n)
    (hSmall : n.natAbs < 10 ^ 21) :
    keyText x = toString (saturate n) := by
  unfold keyText
  rw [hInteger]
  dsimp only [Nat.pow_eq]
  rw [if_pos hSmall]

theorem isBeyond_of_integer?
    {n : Int}
    (hInteger : x.integer? = some n)
    (hSmall : n.natAbs < 10 ^ 21) :
    x.isBeyond = true ↔ 2 ^ 63 ≤ n.natAbs := by
  unfold isBeyond
  rw [hInteger]
  dsimp only
  rw [decide_eq_true hSmall, Bool.and_true, decide_eq_true_iff]

theorem isUndefined_of_isFinite
    (hFinite : x.isFinite = true) :
    x.isUndefined = false := by
  unfold isFinite at hFinite
  simp only [bne_iff_ne] at hFinite
  simp [isUndefined, hFinite]

/- A finite number is written as an integer or as a decimal. -/
theorem keyText_of_isFinite
    (hFinite : x.isFinite = true) :
    (∃ n,
      x.integer? = some n ∧ n.natAbs < 10 ^ 21 ∧
        keyText x = toString (saturate n)) ∨
      (x.isBeyond = false ∧
        keyText x =
          Layout.sign x ++ positional (Decimal.shortest .up x)) := by
  by_cases hWhole : ∃ n, x.integer? = some n ∧ n.natAbs < 10 ^ 21
  · obtain ⟨n, hInteger, hSmall⟩ := hWhole
    exact .inl ⟨n, hInteger, hSmall, keyText_of_integer? hInteger hSmall⟩
  · have hDefined := isUndefined_of_isFinite hFinite
    refine .inr ?_
    unfold isBeyond keyText
    dsimp only [Nat.pow_eq]
    rw [hDefined, hFinite]
    cases hInteger : x.integer? with
    | none => exact ⟨rfl, rfl⟩
    | some n =>
        have hLarge : ¬ n.natAbs < 10 ^ 21 := fun hSmall =>
          hWhole ⟨n, hInteger, hSmall⟩
        dsimp only
        rw [decide_eq_false hLarge, Bool.and_false, if_neg hLarge]
        exact ⟨rfl, rfl⟩

/- Any other number is written as a word. -/
theorem keyText_of_not_isFinite
    (hFinite : x.isFinite = false) :
    keyText x =
      if x.isUndefined then "NaN" else Layout.sign x ++ "inf" := by
  have hInteger : x.integer? = none := by
    unfold integer?
    rw [hFinite]
    rfl
  unfold keyText
  rw [hInteger, hFinite]
  rfl

/- The text of a finite number reads back as that number. -/
theorem exists_reading
    (hFinite : x.isFinite = true)
    (hPositive : 0 < x.significand) :
    ∃ v,
      reading (keyText x).toList = x.sign * v ∧ x.held.Reads v := by
  rcases keyText_of_isFinite hFinite with
    ⟨n, hInteger, hSmall, hText⟩ | ⟨hWithin, hText⟩
  · rw [hText, reading_toString]
    unfold held
    by_cases hBeyond : 2 ^ 63 ≤ n.natAbs
    · rw [if_pos ((isBeyond_of_integer? hInteger hSmall).mpr hBeyond),
        saturate_of_integer? hInteger hBeyond]
      unfold sign
      cases x.negative with
      | true =>
          exact ⟨2 ^ 63, by norm_num, reads_limit (by norm_num) le_rfl⟩
      | false =>
          exact ⟨2 ^ 63 - 1, by norm_num,
            reads_limit le_rfl (by norm_num)⟩
    · rw [if_neg ((isBeyond_of_integer? hInteger hSmall).not.mpr hBeyond)]
      have hSaturate : saturate n = n := by
        unfold saturate
        omega
      rw [hSaturate]
      exact ⟨x.magnitude, integer_eq_sign_mul hInteger,
        reads_magnitude hPositive⟩
  · refine ⟨(Decimal.shortest .up x).value, ?_, ?_⟩
    · rw [hText, reading_signed_positional]
    · unfold held
      rw [hWithin]
      exact reads_shortest hFinite hPositive .up

------------------------------------------------------------
-- Identity
------------------------------------------------------------

/- A character of a text that is no word. -/
def isPlain
    (c : Char) : Bool :=
  c.isDigit || c == '.' || c == '-'

/- The texts of finite numbers are those without letters. -/
theorem keyText_all_isPlain
    (x : Binary64) :
    (keyText x).toList.all isPlain = x.isFinite := by
  cases hFinite : x.isFinite with
  | true =>
      rcases keyText_of_isFinite hFinite with
        ⟨n, -, -, hText⟩ | ⟨-, hText⟩
      · rw [hText, List.all_eq_true]
        intro c hMem
        rcases toString_chars hMem with hDigit | rfl
        · simp [isPlain, hDigit]
        · rfl
      · have hSign : (Layout.sign x).toList.all isPlain = true := by
          unfold Layout.sign
          cases x.negative <;> rfl
        rw [hText, String.toList_append, List.all_append, hSign,
          Bool.true_and, List.all_eq_true]
        intro c hMem
        rcases positional_chars hMem with hDigit | rfl
        · simp [isPlain, hDigit]
        · rfl
  | false =>
      rw [keyText_of_not_isFinite hFinite]
      unfold Layout.sign
      cases x.isUndefined <;> cases x.negative <;> decide

theorem isZero_of_reading
    (hFinite : x.isFinite = true)
    (hReading : reading (keyText x).toList = 0) :
    x.isZero = true := by
  rw [isZero_iff]
  by_contra hOther
  have hPositive : 0 < x.significand := Nat.pos_of_ne_zero hOther
  obtain ⟨v, hValue, hReads⟩ := exists_reading hFinite hPositive
  have hAbove := hReads.pos (significand_held hPositive)
  rw [hReading] at hValue
  unfold sign at hValue
  split at hValue <;> linarith

theorem reading_of_isZero
    (hZero : x.isZero = true) :
    reading (keyText x).toList = 0 := by
  rw [keyText_of_integer? (integer?_of_isZero hZero) (by norm_num),
    reading_toString]
  rfl

/- Finite numbers with one text are zeros or read back as one number. -/
theorem held_eq_of_keyText
    (hFinite : x.isFinite = true)
    (hFinite' : y.isFinite = true)
    (hText : keyText x = keyText y) :
    x.isZero = true ∧ y.isZero = true ∨ x.held = y.held := by
  by_cases hZero : x.isZero = true
  · refine .inl ⟨hZero, isZero_of_reading hFinite' ?_⟩
    rw [← hText, reading_of_isZero hZero]
  · have hZero' : ¬ y.isZero = true := fun hOther =>
      hZero (isZero_of_reading hFinite
        (by rw [hText, reading_of_isZero hOther]))
    rw [isZero_iff] at hZero hZero'
    have hPositive := Nat.pos_of_ne_zero hZero
    have hPositive' := Nat.pos_of_ne_zero hZero'
    obtain ⟨v, hValue, hReads⟩ := exists_reading hFinite hPositive
    obtain ⟨w, hValue', hReads'⟩ := exists_reading hFinite' hPositive'
    have hHeld := significand_held hPositive
    have hHeld' := significand_held hPositive'
    rw [hText, hValue'] at hValue
    obtain ⟨hNegative, rfl⟩ :=
      sign_mul_inj (hReads'.pos hHeld') (hReads.pos hHeld) hValue
    have hFields := fields_eq_of_reads hHeld hHeld' hReads hReads'
    refine .inr (eq_of_fields ?_ hFields)
    rw [negative_held, negative_held, hNegative]

/- A number beyond 64 bits is not held as one that is not. -/
theorem isBeyond_held :
    x.held.isBeyond = x.isBeyond := by
  unfold held
  split
  · rename_i hBeyond
    rw [hBeyond, isBeyond_limit]
  · rfl

/- Numbers beyond 64 bits on one side have one text. -/
theorem keyText_of_isBeyond
    (hBeyond : x.isBeyond = true) :
    keyText x =
      toString (if x.negative then -2 ^ 63 else 2 ^ 63 - 1 : Int) := by
  unfold isBeyond at hBeyond
  split at hBeyond
  · rename_i n hInteger
    rw [Bool.and_eq_true, decide_eq_true_iff, decide_eq_true_iff] at hBeyond
    rw [keyText_of_integer? hInteger hBeyond.2,
      saturate_of_integer? hInteger hBeyond.1]
  · cases hBeyond

theorem keyText_of_isUndefined
    (hUndefined : x.isUndefined = true) :
    keyText x = "NaN" := by
  cases hFinite : x.isFinite with
  | true =>
      rw [isUndefined_of_isFinite hFinite] at hUndefined
      cases hUndefined
  | false => rw [keyText_of_not_isFinite hFinite, if_pos hUndefined]

theorem same_self
    (hDefined : x.isUndefined = false) :
    x.same x = true := by
  rw [same_iff]
  exact ⟨rfl, hDefined, hDefined⟩

theorem fields_of_infinite
    (hFinite : x.isFinite = false)
    (hDefined : x.isUndefined = false) :
    x.exponent = 2047 ∧ x.fraction = 0 := by
  simp only [isFinite, bne_eq_false_iff_eq] at hFinite
  simp only [isUndefined, hFinite, beq_self_eq_true, Bool.true_and,
    bne_eq_false_iff_eq] at hDefined
  exact ⟨Fin.ext hFinite, Fin.ext hDefined⟩

/- Numbers that are not finite have one text only if they are one. -/
theorem same_of_keyText_of_not_isFinite
    (hFinite : x.isFinite = false)
    (hFinite' : y.isFinite = false)
    (hText : keyText x = keyText y) :
    x.same y = true ∨ x.isUndefined = true ∧ y.isUndefined = true := by
  rw [keyText_of_not_isFinite hFinite, keyText_of_not_isFinite hFinite']
    at hText
  have hWords : ∀ a b c d : Bool,
      (if a then "NaN" else (if b then "-" else "") ++ "inf") =
        (if c then "NaN" else (if d then "-" else "") ++ "inf") →
          a = c ∧ (a = false → b = d) := by
    decide
  obtain ⟨hUndefined, hNegative⟩ := hWords _ _ _ _ hText
  cases hDefined : x.isUndefined with
  | true => exact .inr ⟨rfl, hUndefined ▸ hDefined⟩
  | false =>
      have hFields := fields_of_infinite hFinite hDefined
      have hFields' :=
        fields_of_infinite hFinite' (hUndefined ▸ hDefined)
      have hSame : x = y :=
        eq_of_fields (hNegative hDefined)
          ⟨hFields.1.trans hFields'.1.symm,
            hFields.2.trans hFields'.2.symm⟩
      exact .inl (hSame ▸ same_self hDefined)

/- Finite numbers have one text only if they are one or are beyond. -/
theorem same_of_keyText_of_isFinite
    (hFinite : x.isFinite = true)
    (hFinite' : y.isFinite = true)
    (hText : keyText x = keyText y) :
    x.same y = true ∨
      x.isBeyond = true ∧ y.isBeyond = true ∧ x.negative = y.negative := by
  have hDefined := isUndefined_of_isFinite hFinite
  have hDefined' := isUndefined_of_isFinite hFinite'
  rcases held_eq_of_keyText hFinite hFinite' hText with
    ⟨hZero, hZero'⟩ | hHeld
  · left
    simp [same, hDefined, hDefined', hZero, hZero']
  · have hBeyond : x.isBeyond = y.isBeyond := by
      rw [← isBeyond_held, hHeld, isBeyond_held]
    cases hSide : x.isBeyond with
    | true =>
        refine .inr ⟨rfl, hBeyond ▸ hSide, ?_⟩
        rw [← negative_held, hHeld, negative_held]
    | false =>
        unfold held at hHeld
        rw [← hBeyond, hSide] at hHeld
        have hSame : x = y := hHeld
        exact .inl (hSame ▸ same_self hDefined)

/-
  Two numbers have one text as keys if they are equal, if neither is a
  number, or if both are beyond 64 bits on the same side.
-/
theorem keyText_eq_iff :
    keyText x = keyText y ↔
      x.same y = true ∨
        x.isUndefined = true ∧ y.isUndefined = true ∨
          x.isBeyond = true ∧ y.isBeyond = true ∧
            x.negative = y.negative := by
  constructor
  · intro hText
    have hKind : y.isFinite = x.isFinite := by
      rw [← keyText_all_isPlain, ← hText, keyText_all_isPlain]
    cases hFinite : x.isFinite with
    | true =>
        exact (same_of_keyText_of_isFinite hFinite
          (hKind.trans hFinite) hText).imp_right .inr
    | false =>
        exact (same_of_keyText_of_not_isFinite hFinite
          (hKind.trans hFinite) hText).imp_right .inl
  · rintro (hSame | ⟨hUndefined, hUndefined'⟩ | ⟨hBeyond, hBeyond', hSide⟩)
    · exact keyText_eq_of_same hSame
    · rw [keyText_of_isUndefined hUndefined,
        keyText_of_isUndefined hUndefined']
    · rw [keyText_of_isBeyond hBeyond, keyText_of_isBeyond hBeyond', hSide]

/- Whole numbers are one key if they are one or are beyond 64 bits. -/
theorem keyText_eq_iff_of_integer?
    {m n : Int}
    (hFirst : x.integer? = some m)
    (hSecond : y.integer? = some n)
    (hSmall : m.natAbs < 10 ^ 21)
    (hSmall' : n.natAbs < 10 ^ 21) :
    keyText x = keyText y ↔
      m = n ∨ 2 ^ 63 ≤ m ∧ 2 ^ 63 ≤ n ∨ m ≤ -2 ^ 63 ∧ n ≤ -2 ^ 63 := by
  constructor
  · intro hText
    rcases keyText_eq_iff.mp hText with
      hSame | ⟨hUndefined, -⟩ | ⟨hBeyond, hBeyond', hSide⟩
    · left
      rcases alike_cases (.inr hSame) with rfl | ⟨hZero, hZero'⟩
      · exact Option.some.inj (hFirst.symm.trans hSecond)
      · rw [integer?_of_isZero hZero] at hFirst
        rw [integer?_of_isZero hZero'] at hSecond
        exact Option.some.inj (hFirst.symm.trans hSecond)
    · rw [isUndefined_of_isFinite (isFinite_of_integer? hFirst)]
        at hUndefined
      cases hUndefined
    · rw [isBeyond_of_integer? hFirst hSmall] at hBeyond
      rw [isBeyond_of_integer? hSecond hSmall'] at hBeyond'
      have hSign := negative_iff_of_integer? hFirst (by omega)
      have hSign' := negative_iff_of_integer? hSecond (by omega)
      rw [hSide, hSign'] at hSign
      omega
  · intro hAlike
    have hSaturate : saturate m = saturate n := by
      unfold saturate
      omega
    rw [keyText_of_integer? hFirst hSmall,
      keyText_of_integer? hSecond hSmall', hSaturate]

end Binary64

/-
  A whole number below `10 ^ 21` is written as its numeral if it fits in
  64 bits with a sign, and not otherwise; two of them are written alike
  if they are one, or if both are at or beyond the same end of that
  range. Of all numbers, those keys agree in structure that are equal
  numbers, or no numbers, or beyond 64 bits on the same side.
-/
theorem Key.number_identity_iff
    (x y : Binary64) :
    (∀ n : Int,
      x.integer? = some n → n.natAbs < 10 ^ 21 →
        (Layout.keyText x = toString n ↔ -2 ^ 63 ≤ n ∧ n < 2 ^ 63)) ∧
      (∀ m n : Int,
        x.integer? = some m → m.natAbs < 10 ^ 21 →
          y.integer? = some n → n.natAbs < 10 ^ 21 →
            (Layout.keyText x = Layout.keyText y ↔
              m = n ∨ 2 ^ 63 ≤ m ∧ 2 ^ 63 ≤ n ∨
                m ≤ -2 ^ 63 ∧ n ≤ -2 ^ 63)) ∧
      (Key.agree false (.number x) (.number y) = true ↔
        x.same y = true ∨
          x.isUndefined = true ∧ y.isUndefined = true ∨
            x.isBeyond = true ∧ y.isBeyond = true ∧
              x.negative = y.negative) := by
  refine ⟨?_, ?_, ?_⟩
  · intro n hInteger hSmall
    have hRange :
        Layout.saturate n = n ↔ -2 ^ 63 ≤ n ∧ n < 2 ^ 63 := by
      unfold Layout.saturate
      omega
    rw [Binary64.keyText_of_integer? hInteger hSmall,
      Layout.toString_injective.eq_iff, hRange]
  · intro m n hFirst hSmall hSecond hSmall'
    exact Binary64.keyText_eq_iff_of_integer? hFirst hSecond hSmall hSmall'
  · rw [← Binary64.keyText_eq_iff, Key.agree,
      if_neg Bool.false_ne_true, beq_iff_eq]

/- The greatest number below `2 ^ 63` is written as its numeral. -/
theorem Key.number_identity_iff_last :
    let last : Binary64 := ⟨false, 1085, 4503599627370495⟩
    last.integer? = some (2 ^ 63 - 1024) ∧
      Layout.keyText last = toString (2 ^ 63 - 1024 : Int) ∧
        Layout.keyText last ≠ Layout.keyText (Binary64.limit false) ∧
          Key.agree false (.number last)
            (.number (Binary64.limit false)) = false := by
  intro last
  have hLast : last.integer? = some (2 ^ 63 - 1024) := by decide
  have hLimit : (Binary64.limit false).integer? = some (2 ^ 63) := by
    decide
  obtain ⟨hNumeral, hTexts, hAgree⟩ :=
    Key.number_identity_iff last (Binary64.limit false)
  have hApart :=
    hTexts _ _ hLast (by norm_num) hLimit (by norm_num)
  refine ⟨hLast, (hNumeral _ hLast (by norm_num)).mpr (by norm_num), ?_, ?_⟩
  · rw [Ne, hApart]
    norm_num
  · rw [← Bool.not_eq_true, hAgree]
    decide

/- The numbers `2 ^ 63` and `2 ^ 64` are one key, and not their own. -/
theorem Key.agree_beyond :
    let double : Binary64 := ⟨false, 1087, 0⟩
    (Binary64.limit false).integer? = some (2 ^ 63) ∧
      double.integer? = some (2 ^ 64) ∧
        (Binary64.limit false).same double = false ∧
          Layout.keyText (Binary64.limit false) =
            toString (2 ^ 63 - 1 : Int) ∧
            Key.agree false (.number (Binary64.limit false))
              (.number double) = true := by
  intro double
  have hLimit := Binary64.keyText_of_isBeyond
    (Binary64.isBeyond_limit false)
  have hDouble := Binary64.keyText_of_isBeyond
    (show double.isBeyond = true by decide)
  refine ⟨by decide, by decide, by decide, hLimit, ?_⟩
  rw [Key.agree, if_neg Bool.false_ne_true, beq_iff_eq, hLimit, hDouble]
  rfl

end SchemaLang
