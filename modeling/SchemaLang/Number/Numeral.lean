import SchemaLang.Number.Layout

/-
  This file defines the numbers of documents. Integral values that
  binary floating point holds without gaps are kept as integers.

  Key definitions include:
    * `Numeral`
    * `Numeral.ofBinary64?`
    * `Numeral.text`
-/

namespace SchemaLang

/- A number of a document. -/
inductive Numeral
  | integer (value : Int)
  | real (value : Binary64)
  deriving DecidableEq, Repr

namespace Numeral

/- Integral values below this size become integers. -/
def integerLimit : Nat := Nat.pow 2 53

/- The number of a document with a value, if it is finite. -/
def ofBinary64?
    (value : Binary64) : Option Numeral :=
  match value.integer? with
  | some n =>
    if n.natAbs < integerLimit then some (integer n) else some (real value)
  | none => if value.isFinite then some (real value) else none

/- The text of a number in a document. -/
def text : Numeral → String
  | integer value => toString value
  | real value => Layout.documentText value

end Numeral

end SchemaLang
