import SchemaLang.Document.Basic

/-
  This file writes documents as text, on one line or with an
  indentation of two blanks.

  Key definitions include:
    * `Document.quote`
    * `Document.compact`
    * `Document.pretty`
-/

namespace SchemaLang.Document

------------------------------------------------------------
-- Strings
------------------------------------------------------------

/- A hexadecimal digit in lower case. -/
def hexDigit
    (value : Nat) : Char :=
  if value < 10 then Char.ofNat (48 + value) else Char.ofNat (87 + value)

/- A character between quotes. -/
def escape
    (c : Char) : List Char :=
  if c = '"' then ['\\', '"']
  else if c = '\\' then ['\\', '\\']
  else if c = '\x08' then ['\\', 'b']
  else if c = '\x0c' then ['\\', 'f']
  else if c = '\n' then ['\\', 'n']
  else if c = '\r' then ['\\', 'r']
  else if c = '\t' then ['\\', 't']
  else if c.toNat < 32 then
    ['\\', 'u', '0', '0', hexDigit (c.toNat / 16), hexDigit (c.toNat % 16)]
  else [c]

/- A string with its quotes. -/
def quote
    (text : String) : String :=
  String.ofList ('"' :: text.toList.flatMap escape ++ ['"'])

------------------------------------------------------------
-- One Line
------------------------------------------------------------

mutual

/- A document on one line, without blanks. -/
def compact : Document → String
  | null => "null"
  | bool value => if value then "true" else "false"
  | number value => value.text
  | string value => quote value
  | array items => "[" ++ String.intercalate "," (compactAll items) ++ "]"
  | object ⟨_, row⟩ =>
    "\x7b" ++ String.intercalate "," (compactRow row) ++ "\x7d"

/- The elements of an array. -/
def compactAll : List Document → List String
  | [] => []
  | item :: rest => compact item :: compactAll rest

/- The entries of an object. -/
def compactRow
    {names : List String} : OrderedMap.Row Document names → List String
  | .nil => []
  | .cons key value rest _ =>
    (quote key ++ ":" ++ compact value) :: compactRow rest

end

------------------------------------------------------------
-- Many Lines
------------------------------------------------------------

/- The start of a line at a depth. -/
def indentation
    (depth : Nat) : String :=
  String.ofList ('\n' :: List.replicate (2 * depth) ' ')

/- Entries in brackets, each on a line; nothing if there are none. -/
def bracket
    (opener closer : String)
    (depth : Nat)
    (entries : List String) : String :=
  if entries.isEmpty then opener ++ closer
  else
    let separator := "," ++ indentation (depth + 1)
    opener ++ indentation (depth + 1) ++
      String.intercalate separator entries ++ indentation depth ++ closer

mutual

/- A document that starts at a depth, on many lines. -/
def prettyAt
    (depth : Nat) : Document → String
  | null => "null"
  | bool value => if value then "true" else "false"
  | number value => value.text
  | string value => quote value
  | array items => bracket "[" "]" depth (prettyAll (depth + 1) items)
  | object ⟨_, row⟩ =>
    bracket "\x7b" "\x7d" depth (prettyRow (depth + 1) row)

/- The elements of an array. -/
def prettyAll
    (depth : Nat) : List Document → List String
  | [] => []
  | item :: rest => prettyAt depth item :: prettyAll depth rest

/- The entries of an object. -/
def prettyRow
    (depth : Nat)
    {names : List String} : OrderedMap.Row Document names → List String
  | .nil => []
  | .cons key value rest _ =>
    (quote key ++ ": " ++ prettyAt depth value) :: prettyRow depth rest

end

/- A document on many lines. -/
def pretty
    (document : Document) : String :=
  prettyAt 0 document

end SchemaLang.Document
