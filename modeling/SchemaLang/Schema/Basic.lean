import SchemaLang.Number.Numeral
import SchemaLang.OrderedMap
import SchemaLang.Span
import SchemaLang.Text.Class

/-
  This file defines compiled schemas. A schema is shaped like a
  document, and may hold markers that remove the key they are
  given to.

  Key definitions include:
    * `Schema`
    * `Schema.Kind`
    * `Schema.kind`
    * `Schema.ifThen` and `Schema.ifThenElse`
    * `Schema.setTitle`
    * `Schema.describe`
    * `Schema.stripNames`
-/

namespace SchemaLang

/-
  A compiled schema. A removal keeps the place where it was
  written.
-/
inductive Schema
  | null
  | bool (value : Bool)
  | number (value : Numeral)
  | string (value : String)
  | array (items : List Schema)
  | object (fields : OrderedMap Schema)
  | removal (span : Span)
  deriving Inhabited

/- The entries of a schema that is a map. -/
abbrev Fields := OrderedMap Schema

namespace Schema

------------------------------------------------------------
-- Parts
------------------------------------------------------------

/- The number with a value; null if the value is not finite. -/
def ofBinary64
    (value : Binary64) : Schema :=
  match Numeral.ofBinary64? value with
  | some numeral => number numeral
  | none => null

/- A list of strings. -/
def strings
    (values : List String) : Schema :=
  array (values.map string)

/- The entries, if the schema is a map. -/
def fields? : Schema → Option Fields
  | object fields => some fields
  | _ => none

/- The text, if the schema is a string. -/
def string? : Schema → Option String
  | string value => some value
  | _ => none

/- The value of a key, if the schema is a map that has it. -/
def get?
    (schema : Schema)
    (key : String) : Option Schema :=
  schema.fields?.bind (·.get? key)

/- The type that the schema states, if it is a string. -/
def typeName?
    (schema : Schema) : Option String :=
  (schema.get? "type").bind string?

/- The stated type as it is shown in messages. -/
def typeLabel
    (schema : Schema) : String :=
  schema.typeName?.getD "undefined"

/- Whether the schema is a map. -/
def isMap
    (schema : Schema) : Bool :=
  schema.fields?.isSome

/- Whether the schema is no answer of a method. -/
def isFalsy : Schema → Bool
  | null => true
  | removal _ => true
  | _ => false

/- Whether the schema is a removal. -/
def isRemoval : Schema → Bool
  | removal _ => true
  | _ => false

------------------------------------------------------------
-- Kinds
------------------------------------------------------------

/- What a schema describes, judged by its keys. -/
inductive Kind
  | object
  | array
  | string
  | number
  | const
  | composite
  | conditional
  | raw
  deriving DecidableEq, Repr

/- The kind that a stated type decides. -/
def Kind.ofType?
    (type : String) : Option Kind :=
  if type = "object" then some .object
  else if type = "array" then some .array
  else if type = "string" then some .string
  else if type = "number" || type = "integer" then some .number
  else none

/- The kind of a map that states no decisive type. -/
def Kind.ofKeys
    (fields : Fields) : Kind :=
  if fields.contains "const" then .const
  else if ["anyOf", "allOf", "oneOf"].any fields.contains then .composite
  else if fields.contains "if" then .conditional
  else .raw

/- The kind of a schema. -/
def kind
    (schema : Schema) : Kind :=
  match schema with
  | .object fields =>
    (schema.typeName?.bind Kind.ofType?).getD (Kind.ofKeys fields)
  | _ => .raw

------------------------------------------------------------
-- Forms
------------------------------------------------------------

/- Strings that match a pattern. -/
abbrev matching
    (pattern : String) : Schema :=
  object (.of [("type", string "string"), ("pattern", string pattern)])

/- If a test holds, so does what follows. -/
abbrev ifThen
    (test consequent : Schema) : Schema :=
  object (.of [("if", test), ("then", consequent)])

/- A test that decides between two schemas. -/
abbrev ifThenElse
    (test consequent alternate : Schema) : Schema :=
  object (.of [("if", test), ("then", consequent), ("else", alternate)])

------------------------------------------------------------
-- Names
------------------------------------------------------------

/- Change the entries of a schema that is a map. -/
def mapFields
    (change : Fields → Fields) : Schema → Schema
  | object fields => object (change fields)
  | schema => schema

/- Set the title, in its place or first of all. -/
def setTitle
    (name : String)
    (schema : Schema) : Schema :=
  schema.mapFields fun fields =>
    if fields.contains "title" then fields.insert "title" (string name)
    else fields.insertFirst "title" (string name)

/- The text of comments, one line each. -/
def descriptionText
    (comments : List Comment) : String :=
  String.intercalate "\n" (comments.map fun c => Text.trimmed c.text)

/- Put a description in front, unless there is one or no comment. -/
def describe
    (comments : List Comment)
    (schema : Schema) : Schema :=
  if comments.isEmpty then schema
  else
    schema.mapFields fun fields =>
      if fields.contains "description" then fields
      else
        fields.insertFirst "description"
          (string (descriptionText comments))

/- Take title and description away. -/
def stripNames
    (schema : Schema) : Schema :=
  schema.mapFields fun fields =>
    (fields.erase "title").erase "description"

end Schema

end SchemaLang
