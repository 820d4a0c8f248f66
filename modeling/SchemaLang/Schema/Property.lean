import SchemaLang.Schema.Basic

/-
  This file defines operations on the properties of an object
  schema and on the names that it requires.

  Key definitions include:
    * `Fields.requiredNames`
    * `Fields.setRequired`
    * `Fields.toggleRequired`
    * `Fields.properties?`
    * `Fields.insertProperty`
    * `Fields.removeProperty`
    * `Fields.applyEntry`
    * `Schema.setKey`
-/

namespace SchemaLang

namespace Fields

------------------------------------------------------------
-- Required Names
------------------------------------------------------------

/- The strings of a list. -/
def stringsOf
    (items : List Schema) : List String :=
  items.filterMap Schema.string?

/- The names listed as required; what is no string is passed over. -/
def requiredNames
    (fields : Fields) : List String :=
  match fields.get? "required" with
  | some (.array items) => stringsOf items
  | _ => []

/- List names as required. -/
def setRequired
    (fields : Fields)
    (names : List String) : Fields :=
  fields.insert "required" (.strings names)

/- Names without one of them. -/
def without
    (names : List String)
    (name : String) : List String :=
  names.filter (· != name)

/- List a name as required, or take it off the list. -/
def toggleRequired
    (fields : Fields)
    (name : String)
    (required : Bool) : Fields :=
  let names := requiredNames fields
  if required && !names.contains name then
    setRequired fields (names ++ [name])
  else if !required && names.contains name then
    setRequired fields (without names name)
  else fields

------------------------------------------------------------
-- Properties
------------------------------------------------------------

/- The map of properties, if there is one. -/
def properties?
    (fields : Fields) : Option Fields :=
  (fields.get? "properties").bind Schema.fields?

/- Give a property a schema. -/
def insertProperty
    (fields : Fields)
    (name : String)
    (value : Schema) : Fields :=
  let properties := (properties? fields).getD .empty
  fields.insert "properties" (.object (properties.insert name value))

/- Take a property away. -/
def removeProperty
    (fields : Fields)
    (name : String) : Fields :=
  match properties? fields with
  | some properties =>
    fields.insert "properties" (.object (properties.erase name))
  | none => fields

/- Set a key, or remove it if its value is a removal. -/
def applyEntry
    (fields : Fields)
    (key : String)
    (value : Schema) : Fields :=
  if value.isRemoval then fields.erase key else fields.insert key value

end Fields

namespace Schema

/- Set keys of a schema that is a map; removals remove them. -/
def setKeys
    (schema : Schema)
    (entries : Pairs Schema) : Schema :=
  schema.mapFields fun fields =>
    entries.foldl (fun fields entry => Fields.applyEntry fields entry.1 entry.2)
      fields

/- Set one key of a schema that is a map. -/
def setKey
    (schema : Schema)
    (key : String)
    (value : Schema) : Schema :=
  schema.setKeys [(key, value)]

end Schema

end SchemaLang
