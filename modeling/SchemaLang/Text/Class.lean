/-
  This file defines the classes of characters that the language
  tells apart, the trimming of blanks, and the reading of digits.

  Key definitions include:
    * `Text.isBlank`
    * `Text.isSpace`
    * `Text.isLineEnd`
    * `Text.isNameStart`
    * `Text.isNamePart`
    * `Text.trimStart`
    * `Text.trim`
    * `Text.wordLimit`
    * `Text.word?`
-/

namespace SchemaLang.Text

------------------------------------------------------------
-- Blanks
------------------------------------------------------------

/- Characters with the white space property. -/
def isBlank
    (c : Char) : Bool :=
  let n := c.toNat
  (0x09 ≤ n && n ≤ 0x0D) || n == 0x20 || n == 0x85 || n == 0xA0 ||
    n == 0x1680 || (0x2000 ≤ n && n ≤ 0x200A) || n == 0x2028 ||
    n == 0x2029 || n == 0x202F || n == 0x205F || n == 0x3000

/-
  Characters that may stand between tokens: the blanks, the byte
  order mark, the zero width space and the word joiner.
-/
def isSpace
    (c : Char) : Bool :=
  isBlank c || c.toNat == 0xFEFF || c.toNat == 0x200B || c.toNat == 0x2060

/- Characters that end a line comment. -/
def isLineEnd
    (c : Char) : Bool :=
  c == '\n' || c == '\r' || c.toNat == 0x2028 || c.toNat == 0x2029

/- The text without its leading blanks. -/
def trimStart
    (text : List Char) : List Char :=
  text.dropWhile isBlank

/- The text without blanks at either end. -/
def trim
    (text : List Char) : List Char :=
  (trimStart (trimStart text).reverse).reverse

/- A string without blanks at either end. -/
def trimmed
    (text : String) : String :=
  String.ofList (trim text.toList)

------------------------------------------------------------
-- Names
------------------------------------------------------------

/- Visible characters that are never part of a name. -/
def separators : List Char :=
  [':', ';', '\x60', '"', '\'', '@', '#', '.', ',', '|', '^', '&', '<',
    '=', '>', '+', '-', '*', '/', '\\', '%', '?', '!', '~', '(', ')',
    '[', ']', '\x7b', '\x7d']

/- Characters that a name may hold after its first one. -/
def isNamePart
    (c : Char) : Bool :=
  0x20 ≤ c.toNat && !isSpace c && !separators.contains c

/- Characters that a name may start with. -/
def isNameStart
    (c : Char) : Bool :=
  isNamePart c && !c.isDigit

------------------------------------------------------------
-- Digits
------------------------------------------------------------

/- A hexadecimal digit. -/
def isHexDigit
    (c : Char) : Bool :=
  c.isDigit || ('a' ≤ c && c ≤ 'f') || ('A' ≤ c && c ≤ 'F')

/- The value of a digit in a base up to sixteen. -/
def digitValue
    (c : Char) : Nat :=
  if c.isDigit then c.toNat - '0'.toNat
  else if 'a' ≤ c && c ≤ 'f' then c.toNat - 'a'.toNat + 10
  else c.toNat - 'A'.toNat + 10

/- The number that a list of digits denotes, most significant first. -/
def digitsValue
    (base : Nat)
    (digits : List Char) : Nat :=
  digits.foldl (fun value c => value * base + digitValue c) 0

/- Whether a character is a digit of a base up to sixteen. -/
def isDigitOf
    (base : Nat)
    (c : Char) : Bool :=
  isHexDigit c && digitValue c < base

/- The numbers of a machine word are below this one. -/
def wordLimit : Nat :=
  Nat.pow 2 64

/- Digits without the plus sign that may stand in front of them. -/
def unsigned : List Char → List Char
  | '+' :: digits => digits
  | digits => digits

/-
  The number that digits of a base denote, if there are any and the
  number is below a limit. A plus sign may stand in front of them.
-/
def word?
    (base limit : Nat)
    (text : List Char) : Option Nat :=
  let digits := unsigned text
  let value := digitsValue base digits
  if digits.isEmpty || !digits.all (isDigitOf base) || limit ≤ value then
    none
  else some value

/- A plus sign is no digit. -/
theorem unsigned_of_digits
    {base : Nat}
    {digits : List Char}
    (hDigits : ∀ c ∈ digits, isDigitOf base c = true) :
    unsigned digits = digits := by
  cases digits with
  | nil => rfl
  | cons c rest =>
    have hFirst := hDigits c List.mem_cons_self
    unfold unsigned
    split
    · rename_i hPlus
      cases hPlus
      cases hFirst
    · rfl

/- Digits are read exactly if the number is below the limit. -/
theorem word?_of_digits
    {base limit : Nat}
    {digits : List Char}
    (hSome : digits ≠ [])
    (hDigits : ∀ c ∈ digits, isDigitOf base c = true) :
    word? base limit digits =
      if digitsValue base digits < limit then
        some (digitsValue base digits)
      else none := by
  have hAll : digits.all (isDigitOf base) = true :=
    List.all_eq_true.mpr hDigits
  unfold word?
  rw [unsigned_of_digits hDigits]
  dsimp only
  rw [hAll, List.isEmpty_eq_false_iff.mpr hSome]
  by_cases hLess : digitsValue base digits < limit
  · simp [hLess]
  · simp [hLess, Nat.not_lt.mp hLess]

end SchemaLang.Text
