import SchemaLang.Operation.Basic
import SchemaLang.Schema.Merge

/-
  This file defines methods on whole schemas: merging, reading and
  setting keys, and choosing and requiring properties.

  Key definitions include:
    * `Method.merge`
    * `Method.pick`
    * `Method.remove`
    * `Method.required`
    * `Method.notNull`
-/

namespace SchemaLang

namespace Fields

/- Keep the properties that are selected, under their new names. -/
def pick
    (fields : Fields)
    (selected : Call.Selection) : Fields :=
  let fields :=
    if fields.contains "required" then
      setRequired fields ((requiredNames fields).filterMap selected.get?)
    else fields
  match properties? fields with
  | none => fields
  | some properties =>
    let picked := properties.toList.filterMap fun entry =>
      (selected.get? entry.1).map fun renamed => (renamed, entry.2)
    fields.insert "properties" (.object (OrderedMap.ofList picked))

/- Drop the properties with given names. -/
def drop
    (fields : Fields)
    (names : List String) : Fields :=
  let fields :=
    if fields.contains "required" then
      setRequired fields
        ((requiredNames fields).filter fun name => !names.contains name)
    else fields
  match properties? fields with
  | none => fields
  | some properties =>
    fields.insert "properties"
      (.object (properties.filter fun entry => !names.contains entry.1))

/- Require names, or stop requiring them. -/
def demandAll
    (fields : Fields)
    (names : List String)
    (wanted : Bool) : Fields :=
  setRequired fields
    (names.foldl
      (fun required name => Reconciled.demand required name wanted)
      (requiredNames fields))

end Fields

namespace Method

------------------------------------------------------------
-- Keys
------------------------------------------------------------

/- Merge the schemas of all arguments into the receiver. -/
def merge : Method where
  demand := .schemas
  finish := fun schema call sources =>
    schema.merge sources call.name call.span

/- The value of a key that has to be there. -/
def option
    (schema : Schema)
    (name : String)
    (call : Call) : Except CompileError Schema :=
  match schema.get? name with
  | some value => .ok value
  | none => .error ⟨.noOption name, call.span⟩

/- The value of a key. -/
def get : Method where
  demand := .nothing
  finish := fun schema call _ => do
    let name ← call.oneString
    option schema name call

/- Set keys to values that are taken as written. -/
def set : Method where
  demand := .entries
  finish := fun schema _ entries => .ok (schema.setKeys entries)

------------------------------------------------------------
-- Properties
------------------------------------------------------------

/- The schema of a property. -/
def property
    (schema : Schema)
    (name : String)
    (call : Call) : Except CompileError Schema :=
  match schema.fields?.bind Fields.properties? with
  | none => .error ⟨.noProperties, call.span⟩
  | some properties =>
    match properties.get? name with
    | some value => .ok value
    | none => .error ⟨.unknownProperty name, call.span⟩

/- The schema of one property. -/
def prop : Method where
  receiver := some .object
  demand := .nothing
  finish := fun schema call _ => do
    let name ← call.oneString
    property schema name call

/- The items of a property that is an array. -/
def propItems : Method where
  receiver := some .object
  demand := .nothing
  finish := fun schema call _ => do
    let name ← call.oneString
    let value ← property schema name call
    option value "items" call

/- Keep some properties, under other names if need be. -/
def pick : Method where
  receiver := some .object
  demand := .nothing
  finish := fun schema call _ => do
    call.atLeastOne
    let selected ← call.selection
    pure (schema.mapFields fun fields => Fields.pick fields selected)

/- Drop some properties. -/
def remove : Method where
  receiver := some .object
  demand := .nothing
  finish := fun schema call _ => do
    call.atLeastOne
    let names ← call.onlyStrings
    pure (schema.mapFields fun fields => Fields.drop fields names)

/- Require names; a list replaces those required before. -/
def required : Method where
  receiver := some .object
  demand := .nothing
  finish := fun schema call _ => do
    match ← call.requirement with
    | .list names => pure (schema.setKey "required" (.strings names))
    | .names names =>
      pure (schema.mapFields fun fields => Fields.demandAll fields names true)

/- Stop requiring names. -/
def notRequired : Method where
  receiver := some .object
  demand := .nothing
  finish := fun schema call _ => do
    let names ←
      match ← call.requirement with
      | .list names => pure names
      | .names names => pure names
    pure (schema.mapFields fun fields => Fields.demandAll fields names false)

------------------------------------------------------------
-- Unions
------------------------------------------------------------

/- The key of a union and its branches. -/
def branches?
    (schema : Schema) : Option (String × List Schema) :=
  match schema.get? "anyOf", schema.get? "allOf" with
  | some (.array branches), _ => some ("anyOf", branches)
  | _, some (.array branches) => some ("allOf", branches)
  | _, _ => none

/- A union without its null branches; one branch stands alone. -/
def notNull : Method where
  receiver := some .composite
  demand := .nothing
  finish := fun schema call _ =>
    match branches? schema with
    | none => call.fault (.receiver (kindLabel .composite))
    | some (key, branches) =>
      match branches.filter fun branch => branch.typeName? != some "null" with
      | [branch] => .ok branch
      | kept => .ok (schema.mapFields fun fields => fields.insert key (.array kept))

end Method

end SchemaLang
