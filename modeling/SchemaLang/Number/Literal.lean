import SchemaLang.Number.Binary64
import SchemaLang.Text.Class

/-
  This file reads numbers from text: decimal numbers with a sign,
  a point and an exponent, and the number literals of the
  language, which may also have separators, a base and a suffix.

  Key definitions include:
    * `Binary64.ofText?`
    * `Literal.value?`
-/

namespace SchemaLang

namespace Binary64

/- The digits at the front of a text, and the rest. -/
def spanDigits
    (text : List Char) : List Char × List Char :=
  text.span Char.isDigit

/- A sign at the front of a text, true for a minus, and the rest. -/
def spanSign
    (text : List Char) : Bool × List Char :=
  match text with
  | '-' :: rest => (true, rest)
  | '+' :: rest => (false, rest)
  | _ => (false, text)

/- An exponent that has to take the whole text. -/
def exponent?
    (text : List Char) : Option Int :=
  match text with
  | [] => some 0
  | mark :: rest =>
    if mark == 'e' || mark == 'E' then
      let (negative, rest) := spanSign rest
      let (digits, rest) := spanDigits rest
      if digits.isEmpty || !rest.isEmpty then none
      else
        let value : Int := (Text.digitsValue 10 digits : Nat)
        some (if negative then -value else value)
    else none

/- A number without a sign. -/
def ofUnsigned?
    (negative : Bool)
    (text : List Char) : Option Binary64 :=
  let (whole, rest) := spanDigits text
  let (part, rest) :=
    match rest with
    | '.' :: rest => spanDigits rest
    | _ => ([], rest)
  if whole.isEmpty && part.isEmpty then none
  else
    match exponent? rest with
    | none => none
    | some power =>
      some (ofDecimal negative (Text.digitsValue 10 (whole ++ part))
        (power - part.length))

/-
  The number nearest to a decimal text. The infinities and the
  value that is not a number are written as words.
-/
def ofText?
    (text : List Char) : Option Binary64 :=
  let (negative, rest) := spanSign text
  let word := String.ofList (rest.map Char.toLower)
  if word == "inf" || word == "infinity" then some (infinity negative)
  else if word == "nan" then some { undefined with negative := negative }
  else ofUnsigned? negative rest

end Binary64

namespace Literal

/- The number of a literal's digits in a base, if it fits a word. -/
def inBase?
    (base : Nat)
    (digits : List Char) : Option Binary64 :=
  (Text.word? base Text.wordLimit digits).map Binary64.ofNat

/- The text without separators and without the suffix. -/
def plain
    (text : List Char) : List Char :=
  let kept := text.filter (· != '_')
  if kept.getLast? == some 'n' then kept.dropLast else kept

/-
  The number that a literal denotes. There is none for a literal
  in base sixteen, eight or two whose value exceeds 64 bits.
-/
def value?
    (text : List Char) : Option Binary64 :=
  match plain text with
  | '0' :: 'x' :: digits => inBase? 16 digits
  | '0' :: 'X' :: digits => inBase? 16 digits
  | '0' :: 'o' :: digits => inBase? 8 digits
  | '0' :: 'O' :: digits => inBase? 8 digits
  | '0' :: 'b' :: digits => inBase? 2 digits
  | '0' :: 'B' :: digits => inBase? 2 digits
  | digits => Binary64.ofText? digits

end Literal

end SchemaLang
