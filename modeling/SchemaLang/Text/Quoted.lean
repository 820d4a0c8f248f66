import SchemaLang.Text.Hidden
import SchemaLang.Text.Marks

/-
  This file defines how a name is quoted inside a message: between
  double quotes, on one line, with every character that would not
  show up on its own written as an escape.

  Key definitions include:
    * `Quoted.isEscaped`
    * `Quoted.escape`
    * `Quoted.quote`
-/

namespace SchemaLang.Quoted

/- A character that is written by its code point. -/
def isEscaped
    (c : Char) : Bool :=
  Marks.isMark c || Hidden.isHidden c

/- One character as it is written between the quotes. -/
def escape
    (c : Char) : List Char :=
  if c == '"' then ['\\', '"']
  else if c == '\\' then ['\\', '\\']
  else if c == '\n' then ['\\', 'n']
  else if c == '\r' then ['\\', 'r']
  else if c == '\t' then ['\\', 't']
  else if c == '\x00' then ['\\', '0']
  else if isEscaped c then
    ['\\', 'u', '\x7b'] ++ Nat.toDigits 16 c.toNat ++ ['\x7d']
  else [c]

/- A name between double quotes. -/
def quote
    (name : String) : String :=
  String.ofList ('"' :: name.toList.flatMap escape ++ ['"'])

end SchemaLang.Quoted
