import SchemaLang.Error
import SchemaLang.Schema.Property

/-
  This file merges schemas of one type. Properties are reconciled
  name by name, and the last schema that states a property counts.

  Key definitions include:
    * `Reconciled`
    * `Reconciled.entry`
    * `Merging`
    * `Fields.merge`
    * `Schema.merge`
-/

namespace SchemaLang

------------------------------------------------------------
-- Properties
------------------------------------------------------------

/- The properties of an object, and those that are required. -/
structure Reconciled where
  required : List String
  properties : Fields

namespace Reconciled

/- The properties that a map states. -/
def ofFields
    (fields : Fields) : Reconciled :=
  { required := Fields.requiredNames fields
    properties := (Fields.properties? fields).getD .empty }

/- Require a name, or stop requiring it. -/
def demand
    (required : List String)
    (name : String)
    (wanted : Bool) : List String :=
  if wanted then
    if required.contains name then required else required ++ [name]
  else Fields.without required name

/-
  Take over one property. A removal drops the name; otherwise the
  name is required as it is in the source.
-/
def entry
    (sourceRequired : List String)
    (state : Reconciled)
    (property : String × Schema) : Reconciled :=
  let (name, value) := property
  if value.isRemoval then
    { required := Fields.without state.required name
      properties := state.properties.erase name }
  else
    { required :=
        demand state.required name (sourceRequired.contains name)
      properties := state.properties.insert name value }

/- Take over all properties of a source. -/
def take
    (state : Reconciled)
    (source : Fields) : Reconciled :=
  let stated := ofFields source
  stated.properties.toList.foldl (entry stated.required) state

end Reconciled

------------------------------------------------------------
-- Schemas
------------------------------------------------------------

/- The entries of the target so far, and its properties. -/
structure Merging where
  fields : Fields
  object : Reconciled

namespace Merging

/- Whether a key of a source is passed over. -/
def skips
    (isObject : Bool)
    (key : String) : Bool :=
  key == "title" || (isObject && (key == "required" || key == "properties"))

/- Take over a source that is a map. -/
def take
    (isObject : Bool)
    (state : Merging)
    (source : Fields) : Merging :=
  { fields :=
      state.fields.insertAll
        (source.toList.filter fun entry => !skips isObject entry.1)
    object := if isObject then state.object.take source else state.object }

/- Take over sources of the target's type one after the other. -/
def takeAll
    (type : Option String)
    (span : Span)
    (state : Merging) : List Schema → Except CompileError Merging
  | [] => .ok state
  | source :: rest =>
    if source.typeName? = type then
      match source with
      | .object fields =>
        takeAll type span (state.take (type == some "object") fields) rest
      | _ => takeAll type span state rest
    else
      .error ⟨.mergeTypes (type.getD "undefined") source.typeLabel, span⟩

/- The merged map. -/
def result
    (isObject : Bool)
    (state : Merging) : Fields :=
  if isObject then
    (Fields.setRequired state.fields state.object.required).insert
      "properties" (.object state.object.properties)
  else state.fields

end Merging

namespace Fields

/- Merge sources into a map, at a place. -/
def merge
    (fields : Fields)
    (sources : List Schema)
    (span : Span) : Except CompileError Fields := do
  let type := (Schema.object fields).typeName?
  let state ←
    Merging.takeAll type span ⟨fields, Reconciled.ofFields fields⟩ sources
  pure (state.result (type == some "object"))

end Fields

namespace Schema

/- Merge sources into a target, for the method of a given name. -/
def merge
    (target : Schema)
    (sources : List Schema)
    (method : String)
    (span : Span) : Except CompileError Schema :=
  match target with
  | .object fields => do
    let merged ← Fields.merge fields sources span
    pure (.object merged)
  | _ => throw ⟨.argument method .schemaObjects, span⟩

end Schema

end SchemaLang
