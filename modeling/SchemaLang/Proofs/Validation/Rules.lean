import SchemaLang.Proofs.Number.Value
import SchemaLang.Schema.Document
import SchemaLang.Schema.Property
import SchemaLang.Version

/-
  Which documents a schema accepts. The keywords are those that
  the compiler writes by itself; any other key says nothing about
  documents.

  A keyword's value is a value, a schema, a list of schemas, or
  schemas by name, as the keyword wants it. A `Sense` holds all of
  these readings, so the rules of the keywords need no recursion.

  Main declarations:
    * `Document.hasType` and `Document.equals`
    * `Validator`
    * `Validator.holds`
    * `Validator.accepts`
-/

namespace SchemaLang

------------------------------------------------------------
-- Documents
------------------------------------------------------------

namespace Document

/- Whether a document is of a type. -/
def hasType : Document → String → Bool
  | null, type => type == "null"
  | bool _, type => type == "boolean"
  | number n, type =>
    type == "number" || (type == "integer" && n.value.isInt)
  | string _, type => type == "string"
  | array _, type => type == "array"
  | object _, type => type == "object"

mutual

/-
  Equality of documents: numbers by their values, and objects by
  the values of their names in any order.
-/
def equals : Document → Document → Bool
  | null, null => true
  | bool a, bool b => a == b
  | number a, number b => a.value == b.value
  | string a, string b => a == b
  | array xs, array ys => equalsAll xs ys
  | object ⟨names, row⟩, object ys =>
    names.length == ys.keys.length && equalsRow row ys
  | _, _ => false

/- Equality of the elements of two arrays. -/
def equalsAll : List Document → List Document → Bool
  | [], [] => true
  | x :: xs, y :: ys => equals x y && equalsAll xs ys
  | _, _ => false

/- Whether another object has all entries of a row. -/
def equalsRow
    {names : List String} :
    OrderedMap.Row Document names → OrderedMap Document → Bool
  | .nil, _ => true
  | .cons name x rest _, ys =>
    (match ys.get? name with
      | some y => equals x y
      | none => false) && equalsRow rest ys

end

end Document

------------------------------------------------------------
-- Readings Of A Keyword's Value
------------------------------------------------------------

/- What the value of a keyword can stand for. -/
structure Sense where
  value : Schema
  schema : Document → Bool
  schemas : List (Document → Bool)
  named : OrderedMap (Document → Bool)

namespace Sense

/- A value that is no schema and holds none. -/
def plain
    (value : Schema) : Sense :=
  { value := value
    schema := fun _ => false
    schemas := []
    named := .empty }

/- The value, if it is a number. -/
def number?
    (sense : Sense) : Option ℚ :=
  match sense.value with
  | .number n => some n.value
  | _ => none

/- The strings of a value that is a list. -/
def names
    (sense : Sense) : List String :=
  match sense.value with
  | .array items => Fields.stringsOf items
  | _ => []

/- Whether the value is a list. -/
def isList
    (sense : Sense) : Bool :=
  match sense.value with
  | .array _ => true
  | _ => false

/- Whether a document is the value. -/
def isEqual
    (value : Schema)
    (v : Document) : Bool :=
  match value.toDocument with
  | .ok document => document.equals v
  | .error _ => false

end Sense

------------------------------------------------------------
-- Keywords
------------------------------------------------------------

/-
  How documents are checked: by which draft, and what the patterns
  and the formats of texts are.
-/
structure Validator where
  version : Version
  fits : (pattern text : String) → Bool
  conforms : (format : String) → Document → Bool

namespace Validator

/- A rule about the value of a keyword, if there is one. -/
def stated
    (entries : OrderedMap Sense)
    (key : String)
    (rule : Sense → Bool) : Bool :=
  match entries.get? key with
  | some sense => rule sense
  | none => true

/- The rules on what a value is. -/
def valueRules
    (entries : OrderedMap Sense)
    (v : Document) : Bool :=
  stated entries "type" (fun sense =>
    match sense.value with
    | .string type => v.hasType type
    | _ => false) &&
  stated entries "const" (fun sense => Sense.isEqual sense.value v) &&
  stated entries "enum" (fun sense =>
    match sense.value with
    | .array items => items.any fun item => Sense.isEqual item v
    | _ => false)

/- A rule that compares a number with a limit. -/
def limited
    (entries : OrderedMap Sense)
    (key : String)
    (compare : (limit value : ℚ) → Bool)
    (value : ℚ) : Bool :=
  stated entries key fun sense =>
    match sense.number? with
    | some limit => compare limit value
    | none => false

/- The rules on numbers. -/
def numberRules
    (entries : OrderedMap Sense) : Document → Bool
  | .number n =>
    limited entries "minimum" (· ≤ ·) n.value &&
    limited entries "maximum" (· ≥ ·) n.value &&
    limited entries "exclusiveMinimum" (· < ·) n.value &&
    limited entries "exclusiveMaximum" (· > ·) n.value
  | _ => true

/- The rules on texts. -/
def textRules
    (validator : Validator)
    (entries : OrderedMap Sense)
    (v : Document) : Bool :=
  stated entries "pattern" (fun sense =>
    match sense.value, v with
    | .string pattern, .string text => validator.fits pattern text
    | _, _ => true) &&
  stated entries "format" (fun sense =>
    match sense.value with
    | .string format => validator.conforms format v
    | _ => true)

/- Check the items of an array one by one, as far as there are schemas. -/
def positional
    (schemas : List (Document → Bool))
    (items : List Document) : Bool :=
  (schemas.zip items).all fun pair => pair.1 pair.2

/- How many items the positional schemas under a key are about. -/
def positions
    (entries : OrderedMap Sense)
    (key : String) : Nat :=
  match entries.get? key with
  | some sense => sense.schemas.length
  | none => 0

/-
  The rules on the items of an array. Before the draft of 2020,
  `items` is one schema or a list, and `additionalItems` is about
  the items behind such a list.
-/
def itemRules
    (validator : Validator)
    (entries : OrderedMap Sense)
    (items : List Document) : Bool :=
  match validator.version with
  | .draft2020 =>
    stated entries "prefixItems" (fun sense =>
      positional sense.schemas items) &&
    stated entries "items" (fun sense =>
      (items.drop (positions entries "prefixItems")).all sense.schema)
  | _ =>
    stated entries "items" (fun sense =>
      if sense.isList then positional sense.schemas items
      else items.all sense.schema) &&
    stated entries "additionalItems" (fun sense =>
      match entries.get? "items" with
      | some first =>
        !first.isList ||
          (items.drop first.schemas.length).all sense.schema
      | none => true)

/- The rules on arrays. -/
def arrayRules
    (validator : Validator)
    (entries : OrderedMap Sense) : Document → Bool
  | .array items =>
    limited entries "minItems" (· ≤ ·) items.length &&
    limited entries "maxItems" (· ≥ ·) items.length &&
    stated entries "contains" (fun sense => items.any sense.schema) &&
    itemRules validator entries items
  | _ => true

/- Whether a name has a schema of its own. -/
def isKnown
    (validator : Validator)
    (entries : OrderedMap Sense)
    (name : String) : Bool :=
  (match entries.get? "properties" with
    | some sense => sense.named.contains name
    | none => false) ||
  (match entries.get? "patternProperties" with
    | some sense =>
      sense.named.toList.any fun entry => validator.fits entry.1 name
    | none => false)

/- The rules on objects. -/
def objectRules
    (validator : Validator)
    (entries : OrderedMap Sense) : Document → Bool
  | .object fields =>
    stated entries "required" (fun sense =>
      sense.names.all (OrderedMap.contains fields)) &&
    stated entries "properties" (fun sense =>
      fields.toList.all fun field =>
        (sense.named.get? field.1).all (· field.2)) &&
    stated entries "patternProperties" (fun sense =>
      fields.toList.all fun field => sense.named.toList.all fun entry =>
        !validator.fits entry.1 field.1 || entry.2 field.2) &&
    stated entries "additionalProperties" (fun sense =>
      fields.toList.all fun field =>
        isKnown validator entries field.1 || sense.schema field.2)
  | _ => true

/- The rules that combine schemas. -/
def branchRules
    (entries : OrderedMap Sense)
    (v : Document) : Bool :=
  stated entries "anyOf" (fun sense => sense.schemas.any (· v)) &&
  stated entries "allOf" (fun sense => sense.schemas.all (· v)) &&
  stated entries "oneOf" (fun sense => sense.schemas.countP (· v) == 1) &&
  stated entries "if" (fun sense =>
    if sense.schema v then stated entries "then" (·.schema v)
    else stated entries "else" (·.schema v))

/- Whether all rules of a schema's entries hold. -/
def holds
    (validator : Validator)
    (entries : OrderedMap Sense)
    (v : Document) : Bool :=
  valueRules entries v && numberRules entries v &&
    textRules validator entries v && arrayRules validator entries v &&
    objectRules validator entries v && branchRules entries v

------------------------------------------------------------
-- Schemas
------------------------------------------------------------

mutual

/- All readings of a schema. -/
def sense
    (validator : Validator) : Schema → Sense
  | .bool value => { Sense.plain (.bool value) with schema := fun _ => value }
  | .array items =>
    { Sense.plain (.array items) with schemas := itemSchemas validator items }
  | .object ⟨names, row⟩ =>
    let entries : OrderedMap Sense := ⟨names, senseRow validator row⟩
    { Sense.plain (.object ⟨names, row⟩) with
      schema := holds validator entries
      named := entries.mapValues Sense.schema }
  | .null => Sense.plain .null
  | .number value => Sense.plain (.number value)
  | .string value => Sense.plain (.string value)
  | .removal span => Sense.plain (.removal span)

/- The readings of a list's elements as schemas. -/
def itemSchemas
    (validator : Validator) : List Schema → List (Document → Bool)
  | [] => []
  | item :: rest => (sense validator item).schema :: itemSchemas validator rest

/- The readings of the values of a row. -/
def senseRow
    (validator : Validator)
    {names : List String} :
    OrderedMap.Row Schema names → OrderedMap.Row Sense names
  | .nil => .nil
  | .cons key value rest hNew =>
    .cons key (sense validator value) (senseRow validator rest) hNew

end

/- The readings of a map's values. -/
def fieldSenses
    (validator : Validator)
    (fields : Fields) : OrderedMap Sense :=
  fields.mapValues (sense validator)

/- Whether a schema accepts a document. -/
def accepts
    (validator : Validator)
    (schema : Schema)
    (v : Document) : Bool :=
  (sense validator schema).schema v

end Validator

end SchemaLang
