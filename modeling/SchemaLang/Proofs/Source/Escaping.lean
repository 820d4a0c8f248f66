import Mathlib.Tactic.Common
import SchemaLang.Source.Escape

/-
  The ways of writing a text between quotes. A character is written as
  it is, or behind a backslash by a letter, by itself or by its code
  point in hexadecimal digits, and lines may be continued between any
  two characters. However a text is written, resolving the escapes
  gives it back.

  Main declarations:
    * `HexDigits`
    * `Spelling` and `Written`
    * `escape?_spelling`
    * `unescape?_of_written`
-/

namespace SchemaLang.Escape

------------------------------------------------------------
-- Hexadecimal Digits
------------------------------------------------------------

/- The digits in the order of their values. -/
def lowerDigits : List Char :=
  ['0', '1', '2', '3', '4', '5', '6', '7', '8', '9', 'a', 'b', 'c', 'd',
    'e', 'f']

/- The digits with capital letters. -/
def upperDigits : List Char :=
  ['0', '1', '2', '3', '4', '5', '6', '7', '8', '9', 'A', 'B', 'C', 'D',
    'E', 'F']

/- A character is the digit of a value, in either case. -/
def HexDigit
    (c : Char)
    (value : Nat) : Prop :=
  lowerDigits[value]? = some c ∨ upperDigits[value]? = some c

/- Digits denote a number; the last one counts least. -/
inductive HexDigits : List Char → Nat → Prop
  | nil : HexDigits [] 0
  | snoc
      {digits : List Char}
      {number : Nat}
      {c : Char}
      {value : Nat}
      (hDigits : HexDigits digits number)
      (hDigit : HexDigit c value) :
      HexDigits (digits ++ [c]) (16 * number + value)

theorem HexDigit.recognised
    {c : Char}
    {value : Nat}
    (hDigit : HexDigit c value) :
    Text.isDigitOf 16 c = true ∧ Text.digitValue c = value ∧
      c ≠ '\x7d' := by
  have hLower :
      ∀ index : Fin 16,
        Text.isDigitOf 16 lowerDigits[index] = true ∧
          Text.digitValue lowerDigits[index] = index ∧
          lowerDigits[index] ≠ '\x7d' := by
    decide
  have hUpper :
      ∀ index : Fin 16,
        Text.isDigitOf 16 upperDigits[index] = true ∧
          Text.digitValue upperDigits[index] = index ∧
          upperDigits[index] ≠ '\x7d' := by
    decide
  rcases hDigit with hCase | hCase
  · rcases List.getElem?_eq_some_iff.mp hCase with ⟨hIndex, rfl⟩
    exact hLower ⟨value, hIndex⟩
  · rcases List.getElem?_eq_some_iff.mp hCase with ⟨hIndex, rfl⟩
    exact hUpper ⟨value, hIndex⟩

namespace HexDigits

variable {digits : List Char}
variable {number : Nat}

theorem digitsValue
    (hDigits : HexDigits digits number) :
    Text.digitsValue 16 digits = number := by
  induction hDigits with
  | nil => rfl
  | snoc hDigits hDigit ih =>
      unfold Text.digitsValue at ih ⊢
      rw [List.foldl_append, ih, List.foldl_cons, List.foldl_nil,
        hDigit.recognised.2.1, Nat.mul_comm]

theorem forall_mem
    (hDigits : HexDigits digits number) :
    ∀ c ∈ digits, Text.isDigitOf 16 c = true ∧ c ≠ '\x7d' := by
  induction hDigits with
  | nil => simp
  | snoc hDigits hDigit ih =>
      intro c hMember
      rcases List.mem_append.mp hMember with hFront | hLast
      · exact ih c hFront
      · rcases List.mem_singleton.mp hLast with rfl
        exact ⟨hDigit.recognised.1, hDigit.recognised.2.2⟩

/- Digits are read, leading zeros or not, if they fit a word. -/
theorem hexValue?_eq
    (hDigits : HexDigits digits number)
    (hSome : digits ≠ [])
    (hWord : number < Nat.pow 2 32) :
    hexValue? digits = some number := by
  unfold hexValue?
  rw [Text.word?_of_digits hSome fun c hMember =>
      (hDigits.forall_mem c hMember).1,
    hDigits.digitsValue, if_pos hWord]

end HexDigits

------------------------------------------------------------
-- Ways Of Writing
------------------------------------------------------------

/- The letters that stand for other characters behind a backslash. -/
def letters : List (Char × Char) :=
  [('n', '\n'), ('t', '\t'), ('r', '\r'), ('b', '\x08'), ('f', '\x0c'),
    ('v', '\x0b'), ('0', '\x00')]

/- The characters that stand for themselves behind a backslash. -/
def quotes : List Char :=
  ['\'', '"', '\x60', '\\']

/- The ends of a line that is continued. -/
def lineEnds : List (List Char) :=
  [['\n'], ['\r'], ['\r', '\n']]

/- The ways of writing one character. -/
inductive Spelling (c : Char) : List Char → Prop
  | raw
      (hPlain : c ≠ '\\') :
      Spelling c [c]
  | named
      {letter : Char}
      (hLetter : (letter, c) ∈ letters) :
      Spelling c ['\\', letter]
  | quoted
      (hQuote : c ∈ quotes) :
      Spelling c ['\\', c]
  | byte
      {digits : List Char}
      (hDigits : HexDigits digits c.toNat)
      (hLength : digits.length = 2) :
      Spelling c ('\\' :: 'x' :: digits)
  | unit
      {digits : List Char}
      (hDigits : HexDigits digits c.toNat)
      (hLength : digits.length = 4) :
      Spelling c ('\\' :: 'u' :: digits)
  | pair
      {high low : List Char}
      {upper lower : Nat}
      (hUpper : upper < 0x400)
      (hLower : lower < 0x400)
      (hPoint : c.toNat = 0x10000 + 0x400 * upper + lower)
      (hHigh : HexDigits high (0xD800 + upper))
      (hHighLength : high.length = 4)
      (hLow : HexDigits low (0xDC00 + lower))
      (hLowLength : low.length = 4) :
      Spelling c ('\\' :: 'u' :: (high ++ '\\' :: 'u' :: low))
  | braced
      {digits : List Char}
      (hDigits : HexDigits digits c.toNat)
      (hSome : digits ≠ []) :
      Spelling c ('\\' :: 'u' :: '\x7b' :: (digits ++ ['\x7d']))

/-
  The ways of writing a text. A line may be continued anywhere; a
  carriage return that is to stand alone has no line feed behind it.
-/
inductive Written : List Char → List Char → Prop
  | nil : Written [] []
  | char
      {c : Char}
      {spelling chars text : List Char}
      (hSpelling : Spelling c spelling)
      (hRest : Written chars text) :
      Written (c :: chars) (spelling ++ text)
  | continued
      {lineEnd chars text : List Char}
      (hEnd : lineEnd ∈ lineEnds)
      (hAlone : lineEnd = ['\r'] → text.head? ≠ some '\n')
      (hRest : Written chars text) :
      Written chars ('\\' :: (lineEnd ++ text))

------------------------------------------------------------
-- Code Points
------------------------------------------------------------

/- A character is the one with its code point. -/
theorem charOf_toNat
    (c : Char) :
    charOf c.toNat = c := by
  have hValid : c.toNat.isValidChar := c.valid
  have hSame := Char.ofNat_toNat c
  rw [Char.ofNat, dif_pos hValid] at hSame
  rw [charOf, dif_pos hValid, hSame]

theorem toNat_lt_word
    (c : Char) :
    c.toNat < Nat.pow 2 32 :=
  c.val.toNat_lt

/- No character is half a surrogate pair. -/
theorem isHigh_toNat
    (c : Char) :
    isHigh c.toNat = false := by
  have hValid : c.toNat.isValidChar := c.valid
  unfold Nat.isValidChar at hValid
  simp only [isHigh, Bool.and_eq_false_iff, decide_eq_false_iff_not]
  omega

------------------------------------------------------------
-- One Escape
------------------------------------------------------------

variable {c : Char}
variable {digits : List Char}

/- Two digits are read, whatever follows. -/
theorem escape?_byte
    (hDigits : HexDigits digits c.toNat)
    (hLength : digits.length = 2)
    (text : List Char) :
    escape? ('x' :: digits ++ text) = some ([c], text) := by
  have hSome : digits ≠ [] := by
    rintro rfl
    cases hLength
  have hValue := hDigits.hexValue?_eq hSome (toNat_lt_word c)
  simp [escape?, ← hLength, hValue, charOf_toNat]

/- Four digits of a character are read, whatever follows. -/
theorem unit?_digits
    (hDigits : HexDigits digits c.toNat)
    (hLength : digits.length = 4)
    (text : List Char) :
    unit? (digits ++ text) = some (c.toNat, text) := by
  have hSome : digits ≠ [] := by
    rintro rfl
    cases hLength
  have hValue := hDigits.hexValue?_eq hSome (toNat_lt_word c)
  simp [unit?, ← hLength, hValue, isHigh_toNat]

/- The two halves of a pair are read as one, whatever follows. -/
theorem unit?_pair
    {high low : List Char}
    {upper lower : Nat}
    (hUpper : upper < 0x400)
    (hLower : lower < 0x400)
    (hHigh : HexDigits high (0xD800 + upper))
    (hHighLength : high.length = 4)
    (hLow : HexDigits low (0xDC00 + lower))
    (hLowLength : low.length = 4)
    (text : List Char) :
    unit? (high ++ '\\' :: 'u' :: (low ++ text)) =
      some (0x10000 + 0x400 * upper + lower, text) := by
  have hHighSome : high ≠ [] := by
    rintro rfl
    cases hHighLength
  have hLowSome : low ≠ [] := by
    rintro rfl
    cases hLowLength
  have hHighValue :=
    hHigh.hexValue?_eq hHighSome (by rw [Nat.pow_eq]; omega)
  have hLowValue :=
    hLow.hexValue?_eq hLowSome (by rw [Nat.pow_eq]; omega)
  have hIsHigh : isHigh (0xD800 + upper) = true := by
    simp only [isHigh, Bool.and_eq_true, decide_eq_true_eq]
    omega
  have hIsLow : isLow (0xDC00 + lower) = true := by
    simp only [isLow, Bool.and_eq_true, decide_eq_true_eq]
    omega
  have hTake :
      (high ++ '\\' :: 'u' :: (low ++ text)).take 4 = high := by
    rw [← hHighLength, List.take_left]
  have hDrop :
      (high ++ '\\' :: 'u' :: (low ++ text)).drop 4 =
        '\\' :: 'u' :: (low ++ text) := by
    rw [← hHighLength, List.drop_left]
  have hTake' : (low ++ text).take 4 = low := by
    rw [← hLowLength, List.take_left]
  have hDrop' : (low ++ text).drop 4 = text := by
    rw [← hLowLength, List.drop_left]
  simp only [unit?, hTake, hHighValue, hIsHigh, hDrop, hTake', hLowValue,
    hIsLow, hDrop', if_true, Nat.add_sub_cancel_left]
  rw [Nat.mul_comm upper]

/- A code point without braces is read as a unit. -/
theorem escape?_of_unit?
    {rest text : List Char}
    {code : Nat}
    (hBrace : rest.head? ≠ some '\x7b')
    (hUnit : unit? rest = some (code, text)) :
    escape? ('u' :: rest) = some ([charOf code], text) := by
  rw [escape?]
  · rw [hUnit]
  · rintro other rfl
    exact hBrace rfl

/- Digits do not start with a brace. -/
theorem HexDigits.head?_append
    {number : Nat}
    (hDigits : HexDigits digits number)
    (hSome : digits ≠ [])
    (text : List Char) :
    (digits ++ text).head? ≠ some '\x7b' := by
  cases digits with
  | nil => cases hSome rfl
  | cons first others =>
      intro hHead
      cases hHead
      have hDigit := (hDigits.forall_mem _ List.mem_cons_self).1
      revert hDigit
      decide

/- The digits between braces are read, however many there are. -/
theorem escape?_braced
    (hDigits : HexDigits digits c.toNat)
    (hSome : digits ≠ [])
    (text : List Char) :
    escape? ('u' :: '\x7b' :: (digits ++ '\x7d' :: text)) =
      some ([c], text) := by
  have hValue := hDigits.hexValue?_eq hSome (toNat_lt_word c)
  have hTake :
      (digits ++ '\x7d' :: text).takeWhile (· != '\x7d') = digits := by
    rw [List.takeWhile_append_of_pos, List.takeWhile_cons_of_neg,
      List.append_nil]
    · simp
    · intro digit hMember
      simpa using (hDigits.forall_mem digit hMember).2
  have hDrop :
      (digits ++ '\x7d' :: text).drop (digits.length + 1) = text := by
    rw [List.drop_append]
    simp
  simp only [escape?, braced?, hTake, hValue, hDrop, charOf_toNat]

/-
  What stands behind the backslash of a spelling is read as the
  character, and what follows the spelling is left.
-/
theorem escape?_spelling
    {spelling : List Char}
    (hSpelling : Spelling c ('\\' :: spelling))
    (text : List Char) :
    escape? (spelling ++ text) = some ([c], text) := by
  cases hSpelling with
  | raw hPlain => cases hPlain rfl
  | named hLetter =>
      simp only [letters, List.mem_cons, Prod.mk.injEq, List.not_mem_nil,
        or_false] at hLetter
      rcases hLetter with ⟨rfl, rfl⟩ | ⟨rfl, rfl⟩ | ⟨rfl, rfl⟩ |
        ⟨rfl, rfl⟩ | ⟨rfl, rfl⟩ | ⟨rfl, rfl⟩ | ⟨rfl, rfl⟩ <;> rfl
  | quoted hQuote =>
      simp only [quotes, List.mem_cons, List.not_mem_nil, or_false]
        at hQuote
      rcases hQuote with rfl | rfl | rfl | rfl <;> rfl
  | byte hDigits hLength => exact escape?_byte hDigits hLength text
  | unit hDigits hLength =>
      rename_i digits
      have hSome : digits ≠ [] := by
        rintro rfl
        cases hLength
      have hUnit := unit?_digits hDigits hLength text
      rw [List.cons_append,
        escape?_of_unit? (hDigits.head?_append hSome text) hUnit,
        charOf_toNat]
  | pair hUpper hLower hPoint hHigh hHighLength hLow hLowLength =>
      rename_i high low upper lower
      have hSome : high ≠ [] := by
        rintro rfl
        cases hHighLength
      have hUnit :=
        unit?_pair hUpper hLower hHigh hHighLength hLow hLowLength text
      rw [List.cons_append, List.append_assoc, List.cons_append,
        List.cons_append,
        escape?_of_unit? (hHigh.head?_append hSome _) hUnit, ← hPoint,
        charOf_toNat]
  | braced hDigits hSome =>
      rw [List.cons_append, List.cons_append, List.append_assoc,
        List.singleton_append]
      exact escape?_braced hDigits hSome text

/- The end of a line that is continued stands for nothing. -/
theorem escape?_lineEnd
    {lineEnd text : List Char}
    (hEnd : lineEnd ∈ lineEnds)
    (hAlone : lineEnd = ['\r'] → text.head? ≠ some '\n') :
    escape? (lineEnd ++ text) = some ([], text) := by
  simp only [lineEnds, List.mem_cons, List.not_mem_nil, or_false] at hEnd
  rcases hEnd with rfl | rfl | rfl
  · rfl
  · rw [List.singleton_append, escape?]
    rintro other rfl
    exact hAlone rfl rfl
  · rfl

------------------------------------------------------------
-- Texts
------------------------------------------------------------

theorem resolve?_escape
    {chars rest text : List Char}
    (hEscape : escape? rest = some (chars, text))
    (steps : Nat) :
    resolve? (steps + 1) ('\\' :: rest) =
      (resolve? steps text).map (chars ++ ·) := by
  rw [resolve?, if_pos rfl, hEscape]

/- Every spelling takes one step. -/
theorem resolve?_spelling
    {spelling : List Char}
    (hSpelling : Spelling c spelling)
    (steps : Nat)
    (text : List Char) :
    resolve? (steps + 1) (spelling ++ text) =
      (resolve? steps text).map (c :: ·) := by
  by_cases hEscaped : ∃ rest, spelling = '\\' :: rest
  · rcases hEscaped with ⟨rest, rfl⟩
    exact resolve?_escape (escape?_spelling hSpelling text) steps
  · cases hSpelling with
    | raw hPlain => rw [List.singleton_append, resolve?, if_neg hPlain]
    | _ => exact absurd ⟨_, rfl⟩ hEscaped

/- No spelling is empty. -/
theorem Spelling.length_pos
    {spelling : List Char}
    (hSpelling : Spelling c spelling) :
    0 < spelling.length := by
  cases hSpelling <;> simp

/- As many steps as there are characters are enough. -/
theorem resolve?_of_written
    {chars text : List Char}
    (hWritten : Written chars text)
    {steps : Nat}
    (hSteps : text.length ≤ steps) :
    resolve? steps text = some chars := by
  induction hWritten generalizing steps with
  | nil => rw [resolve?]
  | char hSpelling hRest ih =>
      have hLength := hSpelling.length_pos
      rw [List.length_append] at hSteps
      obtain ⟨fewer, rfl⟩ : ∃ fewer, steps = fewer + 1 :=
        ⟨steps - 1, by omega⟩
      rw [resolve?_spelling hSpelling, ih (by omega)]
      rfl
  | continued hEnd hAlone hRest ih =>
      rw [List.length_cons, List.length_append] at hSteps
      obtain ⟨fewer, rfl⟩ : ∃ fewer, steps = fewer + 1 :=
        ⟨steps - 1, by omega⟩
      rw [resolve?_escape (escape?_lineEnd hEnd hAlone), ih (by omega)]
      rfl

/- However a text is written, resolving the escapes gives it back. -/
theorem unescape?_of_written
    {chars text : List Char}
    (hWritten : Written chars text) :
    unescape? text = some chars :=
  resolve?_of_written hWritten (Nat.le_refl _)

/- One character in digits, one as a pair, and a line that goes on. -/
def continuedText : List Char :=
  ['\\', 'x', '6', '1', '\\', '\r', '\\', 'u', 'D', '8', '3', 'd', '\\',
    'u', 'D', 'E', '0', '0', '\\', 'u', '\x7b', '0', '0', 'e', '9', '\x7d']

theorem written_continuedText :
    Written ['a', '😀', 'é'] continuedText := by
  have hByte :=
    HexDigits.nil.snoc (show HexDigit '6' 6 from .inl rfl) |>.snoc
      (show HexDigit '1' 1 from .inl rfl)
  have hHigh :=
    HexDigits.nil.snoc (show HexDigit 'D' 13 from .inr rfl) |>.snoc
      (show HexDigit '8' 8 from .inl rfl) |>.snoc
      (show HexDigit '3' 3 from .inl rfl) |>.snoc
      (show HexDigit 'd' 13 from .inl rfl)
  have hLow :=
    HexDigits.nil.snoc (show HexDigit 'D' 13 from .inr rfl) |>.snoc
      (show HexDigit 'E' 14 from .inr rfl) |>.snoc
      (show HexDigit '0' 0 from .inl rfl) |>.snoc
      (show HexDigit '0' 0 from .inl rfl)
  have hBraced :=
    HexDigits.nil.snoc (show HexDigit '0' 0 from .inl rfl) |>.snoc
      (show HexDigit '0' 0 from .inl rfl) |>.snoc
      (show HexDigit 'e' 14 from .inl rfl) |>.snoc
      (show HexDigit '9' 9 from .inl rfl)
  have hFirst : Spelling 'a' ['\\', 'x', '6', '1'] := .byte hByte rfl
  have hSecond :
      Spelling '😀'
        ['\\', 'u', 'D', '8', '3', 'd', '\\', 'u', 'D', 'E', '0',
          '0'] :=
    .pair (show 0x3d < 0x400 by decide) (show 0x200 < 0x400 by decide)
      rfl hHigh rfl hLow rfl
  have hThird :
      Spelling 'é' ['\\', 'u', '\x7b', '0', '0', 'e', '9', '\x7d'] :=
    .braced hBraced (show ['0', '0', 'e', '9'] ≠ [] by simp)
  have hEnd : ['\r'] ∈ lineEnds := by simp [lineEnds]
  exact .char hFirst (.continued hEnd (by simp)
    (.char hSecond (.char hThird .nil)))

theorem unescape?_of_written_continuedText :
    Written ['a', '😀', 'é'] continuedText ∧
      unescape? continuedText = some ['a', '😀', 'é'] :=
  ⟨written_continuedText, unescape?_of_written written_continuedText⟩

end SchemaLang.Escape
