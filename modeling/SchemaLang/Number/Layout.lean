import SchemaLang.Number.Shortest

/-
  This file lays out numbers as text: in documents, where very
  large and very small numbers carry an exponent, and as object
  keys, where no number does.

  Key definitions include:
    * `Layout.documentText`
    * `Layout.keyText`
-/

namespace SchemaLang.Layout

------------------------------------------------------------
-- Digits
------------------------------------------------------------

/- A run of zeros. -/
def zeros
    (count : Nat) : String :=
  String.ofList (List.replicate count '0')

/- The digits of a decimal's coefficient. -/
def digits
    (d : Decimal) : List Char :=
  Nat.toDigits 10 d.coefficient

/- The power of ten of a decimal's first digit. -/
def leading
    (d : Decimal) : Int :=
  d.power + (digits d).length - 1

/-
  A decimal written without an exponent. A whole number has no
  point.
-/
def positional
    (d : Decimal) : String :=
  let text := digits d
  if 0 ≤ d.power then String.ofList text ++ zeros d.power.toNat
  else if leading d < 0 then
    "0." ++ zeros (-(leading d) - 1).toNat ++ String.ofList text
  else
    let whole := (leading d + 1).toNat
    String.ofList (text.take whole) ++ "." ++
      String.ofList (text.drop whole)

/- A decimal written with one digit before the point. -/
def scientific
    (d : Decimal) : String :=
  let mantissa :=
    match digits d with
    | [] => "0"
    | [digit] => String.singleton digit
    | digit :: rest => String.singleton digit ++ "." ++ String.ofList rest
  let mark := if leading d < 0 then "e-" else "e+"
  mantissa ++ mark ++ toString (leading d).natAbs

/- The sign in front of a number. -/
def sign
    (x : Binary64) : String :=
  if x.negative then "-" else ""

------------------------------------------------------------
-- Documents
------------------------------------------------------------

/-
  A number in a document: the fewest digits that read back, with a
  point always, and with an exponent from `1e+16` on and below
  `1e-5`. Of two equally short and near forms the even one is
  taken. What is not finite has no form and is null.
-/
def documentText
    (x : Binary64) : String :=
  if !x.isFinite then "null"
  else if x.isZero then sign x ++ "0.0"
  else
    let d := Decimal.shortest .even x
    if leading d < -5 || 16 ≤ leading d then sign x ++ scientific d
    else if 0 ≤ d.power then sign x ++ positional d ++ ".0"
    else sign x ++ positional d

------------------------------------------------------------
-- Keys
------------------------------------------------------------

/- An integer kept within 64 bits with a sign. -/
def saturate
    (n : Int) : Int :=
  max (-9223372036854775808) (min n 9223372036854775807)

/-
  A number as an object key: a whole number below `10 ^ 21` is
  written as an integer within 64 bits, any other number with the
  fewest digits that read back and no exponent. Of two equally
  short and near forms the upper one is taken.
-/
def keyText
    (x : Binary64) : String :=
  let whole : Option Int :=
    match x.integer? with
    | some n => if n.natAbs < Nat.pow 10 21 then some n else none
    | none => none
  match whole with
  | some n => toString (saturate n)
  | none =>
    if x.isUndefined then "NaN"
    else if !x.isFinite then sign x ++ "inf"
    else sign x ++ positional (Decimal.shortest .up x)

end SchemaLang.Layout
