import Mathlib.Data.Nat.Digits.Defs
import SchemaLang.Number.Literal
import SchemaLang.Proofs.Number.Rounding

/-
  Literals in base sixteen, eight and two. However such a literal is
  spelled, it is read as the number nearest to the value of its digits
  if that value fits in 64 bits, and not at all otherwise, though the
  same number in base ten would be read.

  Main declarations:
    * `Literal.Digits` and `Literal.Spells`
    * `Literal.plain_of_spells`
    * `Literal.digitsValue_eq_number`
    * `Literal.read_nearest_iff`
-/

namespace SchemaLang.Literal

variable {base digit : Nat}
variable {digits : List Nat}
variable {c : Char}
variable {text body : List Char}

------------------------------------------------------------
-- Spellings
------------------------------------------------------------

/- A character is the numeral of a digit, a letter in either case. -/
def IsNumeral
    (digit : Nat)
    (c : Char) : Prop :=
  c = digit.digitChar ∨ c = digit.digitChar.toUpper

/- Digits of a base, most significant first, with separators between. -/
inductive Digits (base : Nat) : List Nat → List Char → Prop
  | last {digit : Nat} {c : Char} :
      digit < base → IsNumeral digit c → Digits base [digit] [c]
  | more {digit : Nat} {c : Char} {digits : List Nat} {text : List Char}
      (separators : Nat) :
      digit < base → IsNumeral digit c → Digits base digits text →
        Digits base (digit :: digits)
          (c :: (List.replicate separators '_' ++ text))

/- The marks of a base. -/
def marks : Nat → List Char
  | 16 => ['x', 'X']
  | 8 => ['o', 'O']
  | 2 => ['b', 'B']
  | _ => []

/- A literal of a base with its digits, with or without the suffix. -/
def Spells
    (base : Nat)
    (digits : List Nat)
    (text : List Char) : Prop :=
  ∃ mark ∈ marks base, ∃ body, Digits base digits body ∧
    (text = '0' :: mark :: body ∨ text = '0' :: mark :: body ++ ['n'])

/- The value of digits. -/
def number
    (base : Nat)
    (digits : List Nat) : Nat :=
  Nat.ofDigits base digits.reverse

theorem cases_of_mem_marks
    {mark : Char}
    (hMark : mark ∈ marks base) :
    base = 16 ∧ (mark = 'x' ∨ mark = 'X') ∨
      base = 8 ∧ (mark = 'o' ∨ mark = 'O') ∨
      base = 2 ∧ (mark = 'b' ∨ mark = 'B') := by
  unfold marks at hMark
  split at hMark
  · exact .inl ⟨rfl, List.mem_pair.mp hMark⟩
  · exact .inr (.inl ⟨rfl, List.mem_pair.mp hMark⟩)
  · exact .inr (.inr ⟨rfl, List.mem_pair.mp hMark⟩)
  · cases hMark

/- Numerals have the value of their digits and are no other marks. -/
theorem facts_of_isNumeral
    (hBase : base ≤ 16)
    (hDigit : digit < base)
    (hNumeral : IsNumeral digit c) :
    Text.isDigitOf base c = true ∧ Text.digitValue c = digit ∧
      c ≠ '_' ∧ c ≠ 'n' := by
  have hAll :
      ∀ digit < 16,
        (Text.isHexDigit digit.digitChar = true ∧
          Text.digitValue digit.digitChar = digit ∧
          digit.digitChar ≠ '_' ∧ digit.digitChar ≠ 'n') ∧
        (Text.isHexDigit digit.digitChar.toUpper = true ∧
          Text.digitValue digit.digitChar.toUpper = digit ∧
          digit.digitChar.toUpper ≠ '_' ∧
          digit.digitChar.toUpper ≠ 'n') := by
    decide
  have hFacts :
      Text.isHexDigit c = true ∧ Text.digitValue c = digit ∧
        c ≠ '_' ∧ c ≠ 'n' := by
    rcases hNumeral with rfl | rfl
    · exact (hAll digit (hDigit.trans_le hBase)).1
    · exact (hAll digit (hDigit.trans_le hBase)).2
  refine ⟨?_, hFacts.2⟩
  unfold Text.isDigitOf
  rw [hFacts.1, hFacts.2.1, Bool.true_and, decide_eq_true_iff]
  exact hDigit

------------------------------------------------------------
-- Digits
------------------------------------------------------------

/- Numerals that stand for digits of a base, one for each. -/
abbrev Numerals
    (base : Nat)
    (digits : List Nat)
    (chars : List Char) : Prop :=
  List.Forall₂ (fun digit c => digit < base ∧ IsNumeral digit c)
    digits chars

theorem filter_cons_of_ne
    (hOther : c ≠ '_') :
    (c :: text).filter (· != '_') = c :: text.filter (· != '_') :=
  List.filter_cons_of_pos (bne_iff_ne.mpr hOther)

/- Without separators, the numerals of the digits are left. -/
theorem numerals_of_digits
    (hBase : base ≤ 16)
    (hDigits : Digits base digits body) :
    Numerals base digits (body.filter (· != '_')) ∧
      body.filter (· != '_') ≠ [] := by
  induction hDigits with
  | last hDigit hNumeral =>
      have hFacts := facts_of_isNumeral hBase hDigit hNumeral
      rw [filter_cons_of_ne hFacts.2.2.1]
      exact ⟨.cons ⟨hDigit, hNumeral⟩ .nil, List.cons_ne_nil _ _⟩
  | more separators hDigit hNumeral _ ih =>
      have hFacts := facts_of_isNumeral hBase hDigit hNumeral
      have hGap : (List.replicate separators '_').filter (· != '_') = [] := by
        simp
      rw [filter_cons_of_ne hFacts.2.2.1, List.filter_append, hGap,
        List.nil_append]
      exact ⟨.cons ⟨hDigit, hNumeral⟩ ih.1, List.cons_ne_nil _ _⟩

/- Numerals are digits of their base, and none is the suffix. -/
theorem forall_mem_numerals
    {chars : List Char}
    (hBase : base ≤ 16)
    (hNumerals : Numerals base digits chars) :
    ∀ c ∈ chars, Text.isDigitOf base c = true ∧ c ≠ 'n' := by
  induction hNumerals with
  | nil => simp
  | cons hNumeral _ ih =>
      have hFacts := facts_of_isNumeral hBase hNumeral.1 hNumeral.2
      exact List.forall_mem_cons.mpr ⟨⟨hFacts.1, hFacts.2.2.2⟩, ih⟩

/- Numerals are read as the value of their digits. -/
theorem digitsValue_eq_number
    {chars : List Char}
    (hBase : base ≤ 16)
    (hNumerals : Numerals base digits chars) :
    Text.digitsValue base chars = number base digits := by
  have hFold : ∀ start : Nat,
      chars.foldl (fun value c => value * base + Text.digitValue c) start =
        digits.foldl (fun value digit => digit + base * value) start := by
    induction hNumerals with
    | nil => exact fun _ => rfl
    | cons hNumeral _ ih =>
        intro start
        rw [List.foldl_cons, List.foldl_cons, ih,
          (facts_of_isNumeral hBase hNumeral.1 hNumeral.2).2.1,
          Nat.mul_comm, Nat.add_comm]
  unfold Text.digitsValue number
  rw [hFold, Nat.ofDigits_eq_foldr, List.foldr_reverse]
  rfl

------------------------------------------------------------
-- Literals
------------------------------------------------------------

/- Without separators and suffix, the mark and the numerals are left. -/
theorem plain_of_spells
    (hSpells : Spells base digits text) :
    ∃ mark ∈ marks base, ∃ chars,
      base ≤ 16 ∧ plain text = '0' :: mark :: chars ∧ chars ≠ [] ∧
        Numerals base digits chars := by
  obtain ⟨mark, hMark, body, hDigits, hText⟩ := hSpells
  have hBase : base ≤ 16 ∧ mark ≠ '_' := by
    rcases cases_of_mem_marks hMark with
      ⟨rfl, rfl | rfl⟩ | ⟨rfl, rfl | rfl⟩ | ⟨rfl, rfl | rfl⟩ <;> decide
  obtain ⟨hNumerals, hSome⟩ := numerals_of_digits hBase.1 hDigits
  refine ⟨mark, hMark, body.filter (· != '_'), hBase.1, ?_, hSome,
    hNumerals⟩
  have hFront :
      ('0' :: mark :: body).filter (· != '_') =
        '0' :: mark :: body.filter (· != '_') := by
    rw [filter_cons_of_ne (by decide), filter_cons_of_ne hBase.2]
  unfold plain
  dsimp only
  rcases hText with rfl | rfl
  · rw [hFront]
    generalize body.filter (· != '_') = chars at *
    have hLast : ('0' :: mark :: chars).getLast? ≠ some 'n' := by
      rw [List.getLast?_cons_cons, List.getLast?_cons_of_ne_nil hSome]
      intro hSuffix
      exact (forall_mem_numerals hBase.1 hNumerals _
        (List.mem_of_getLast? hSuffix)).2 rfl
    rw [if_neg (by simpa using hLast)]
  · have hSuffix : ['n'].filter (· != '_') = ['n'] := rfl
    rw [List.filter_append, hFront, hSuffix, List.getLast?_concat,
      if_pos (by decide), List.dropLast_concat]

/- The mark tells the base in which the rest is read. -/
theorem value?_of_plain
    {mark : Char}
    {chars : List Char}
    (hMark : mark ∈ marks base)
    (hPlain : plain text = '0' :: mark :: chars) :
    value? text = inBase? base chars := by
  unfold value?
  rw [hPlain]
  rcases cases_of_mem_marks hMark with
    ⟨rfl, rfl | rfl⟩ | ⟨rfl, rfl | rfl⟩ | ⟨rfl, rfl | rfl⟩ <;> rfl

/- A spelled literal denotes the value of its digits, up to a limit. -/
theorem value?_of_spells
    (hSpells : Spells base digits text) :
    value? text =
      if number base digits < 2 ^ 64 then
        some (Binary64.ofNat (number base digits))
      else none := by
  obtain ⟨mark, hMark, chars, hBase, hPlain, hSome, hNumerals⟩ :=
    plain_of_spells hSpells
  have hDigits := fun c hMember =>
    (forall_mem_numerals hBase hNumerals c hMember).1
  rw [value?_of_plain hMark hPlain]
  unfold inBase? Text.wordLimit
  rw [Text.word?_of_digits hSome hDigits,
    digitsValue_eq_number hBase hNumerals, Nat.pow_eq]
  split <;> rfl

/-
  However a literal in base sixteen, eight or two is spelled, it is read
  as the number nearest to the value of its digits, which is exact below
  `2 ^ 53`, if and only if that value fits in 64 bits. Any other such
  literal is not read, though its value may be a number.
-/
theorem read_nearest_iff
    (hSpells : Spells base digits text) :
    ((∃ x, value? text = some x ∧ x.Nearest (number base digits) ∧
        (number base digits < 2 ^ 53 → x.value = number base digits)) ↔
      number base digits < 2 ^ 64) ∧
    (2 ^ 64 ≤ number base digits → value? text = none) := by
  have hValue := value?_of_spells hSpells
  constructor
  · constructor
    · rintro ⟨x, hRead, -⟩
      by_contra hBeyond
      rw [hValue, if_neg hBeyond] at hRead
      cases hRead
    · intro hFits
      rw [if_pos hFits] at hValue
      exact ⟨_, hValue, Binary64.nearest_ofNat (by decide) hFits,
        Binary64.value_ofNat⟩
  · intro hBeyond
    rw [hValue, if_neg (Nat.not_lt.mpr hBeyond)]

/- Separators, both cases, a leading zero and the suffix at once. -/
theorem read_nearest_iff_mixed :
    Spells 16 [0, 10, 11, 12] "0X0_aB__cn".toList ∧
      ∃ x, value? "0X0_aB__cn".toList = some x ∧ x.value = 2748 := by
  have hSpells : Spells 16 [0, 10, 11, 12] "0X0_aB__cn".toList :=
    ⟨'X', by decide, "0_aB__c".toList,
      .more 1 (by decide) (.inl rfl)
        (.more 0 (by decide) (.inl rfl)
          (.more 2 (by decide) (.inr rfl)
            (.last (by decide) (.inl rfl)))),
      .inr rfl⟩
  have hNumber : number 16 [0, 10, 11, 12] = 2748 := by decide
  obtain ⟨hRead, -⟩ := read_nearest_iff hSpells
  rw [hNumber] at hRead
  obtain ⟨x, hValue, -, hExact⟩ := hRead.mpr (by decide)
  exact ⟨hSpells, x, hValue, by exact_mod_cast hExact (by decide)⟩

theorem digits_zeros
    (hBase : 0 < base)
    (count : Nat) :
    Digits base (List.replicate (count + 1) 0)
      (List.replicate (count + 1) '0') := by
  induction count with
  | zero => exact .last hBase (.inl rfl)
  | succ count ih => exact .more 0 hBase (.inl rfl) ih

/-
  The number `2 ^ 64` is read in base ten, and not in base sixteen.
-/
theorem not_read_beyond :
    Spells 16 (1 :: List.replicate 16 0) "0x10000000000000000".toList ∧
      number 16 (1 :: List.replicate 16 0) = 2 ^ 64 ∧
      (Binary64.ofNat (2 ^ 64)).Nearest (2 ^ 64 : Nat) ∧
      value? "0x10000000000000000".toList = none ∧
      value? "18446744073709551616".toList =
        some (Binary64.ofNat (2 ^ 64)) := by
  refine ⟨⟨'x', by decide, "10000000000000000".toList, ?_, .inl rfl⟩,
    by decide, ?_, by decide, by decide⟩
  · exact .more 0 (by decide) (.inl rfl) (digits_zeros (by decide) 15)
  · exact Binary64.nearest_ofNat (show 65 ≤ 1023 by decide) (by decide)

end SchemaLang.Literal
