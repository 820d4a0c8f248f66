import SchemaLang.Operation.Selection

/-
  This file defines the operations that are there from the start.

  Key definitions include:
    * `Method.builtins`
    * `Method.directives`
-/

namespace SchemaLang.Method

/- The key is the name by which a method is called. -/
def ownName
    (call : Call) : String :=
  call.name

/- Set a string's pattern. -/
def pattern : Method :=
  setting (some .string) (fun _ => "pattern") fun call => do
    let value ← call.onePattern
    pure (.string value)

/- Methods that are directives, too. -/
def shared : OrderedMap Method := .of
  [("additionalProperties",
      schema (some .object) "additionalProperties" .flagOrSchema),
    ("dependencies",
      schema (some .object) "dependentRequired" .literalObject),
    ("dependentRequired",
      schema (some .object) "dependentRequired" .literalObject),
    ("dependentSchemas",
      schema (some .object) "dependentSchemas" .schemaMap),
    ("maxProperties", number .object ownName),
    ("minProperties", number .object ownName),
    ("patternProperties",
      schema (some .object) "patternProperties" .schemaMap),
    ("propertyNames", schema (some .object) "propertyNames" .schema),
    ("required", required),
    ("unevaluatedProperties", flag .object "unevaluatedProperties"),
    ("id", text none "$id"),
    ("ref", text none "$ref")]

/- The methods of every schema. -/
def builtins : OrderedMap Method := .of
  ([("merge", merge), ("add", merge), ("assign", merge), ("extend", merge),
    ("get", get), ("set", set), ("not", schema none "not" .literal),
    ("minLength", number .string ownName),
    ("maxLength", number .string ownName),
    ("pattern", pattern),
    ("format", text (some .string) "format"),
    ("minimum", number .number fun _ => "minimum"),
    ("maximum", number .number fun _ => "maximum"),
    ("exclusiveMinimum", number .number fun _ => "exclusiveMinimum"),
    ("exclusiveMaximum", number .number fun _ => "exclusiveMaximum"),
    ("multipleOf", number .number fun _ => "multipleOf"),
    ("items", schema (some .array) "items" .items),
    ("minItems", number .array ownName),
    ("maxItems", number .array ownName),
    ("uniqueItems", flag .array "uniqueItems"),
    ("additionalItems",
      schema (some .array) "additionalItems" .flagOrSchema),
    ("contains", schema (some .array) "contains" .schema),
    ("minContains", number .array ownName),
    ("maxContains", number .array ownName),
    ("unevaluatedItems",
      schema (some .array) "unevaluatedItems" .flagOrSchema),
    ("prop", prop), ("props", pick), ("propItems", propItems),
    ("pick", pick), ("remove", remove), ("omit", remove),
    ("notRequired", notRequired), ("optional", notRequired),
    ("notNull", notNull)] ++ shared.toList)
  (by decide)

/- The directives of object literals. -/
def directives : OrderedMap Method :=
  shared

end SchemaLang.Method
