import SchemaLang.Document.Basic
import SchemaLang.Error
import SchemaLang.Schema.Basic

/-
  This file relates schemas and documents. A schema is a document
  if no removal is left in it.

  Key definitions include:
    * `Schema.toDocument`
    * `Schema.ofDocument`
    * `Schema.outline`
-/

namespace SchemaLang.Schema

mutual

/- The document of a schema, or an error at its first removal. -/
def toDocument : Schema → Except CompileError Document
  | null => pure .null
  | bool value => pure (.bool value)
  | number value => pure (.number value)
  | string value => pure (.string value)
  | array items => do
    let items' ← toDocuments items
    pure (.array items')
  | object ⟨names, row⟩ => do
    let row' ← toRow row
    pure (.object ⟨names, row'⟩)
  | removal span => throw ⟨.strayRemoval, span⟩

/- The documents of the elements of a list. -/
def toDocuments : List Schema → Except CompileError (List Document)
  | [] => pure []
  | item :: rest => do
    let first ← toDocument item
    let others ← toDocuments rest
    pure (first :: others)

/- The documents of the values of a row. -/
def toRow
    {names : List String} :
    OrderedMap.Row Schema names →
      Except CompileError (OrderedMap.Row Document names)
  | .nil => pure .nil
  | .cons key value rest hNew => do
    let first ← toDocument value
    let others ← toRow rest
    pure (.cons key first others hNew)

end

mutual

/- The schema of a document. -/
def ofDocument : Document → Schema
  | .null => null
  | .bool value => bool value
  | .number value => number value
  | .string value => string value
  | .array items => array (ofDocuments items)
  | .object ⟨names, row⟩ => object ⟨names, ofRow row⟩

/- The schemas of the elements of a list. -/
def ofDocuments : List Document → List Schema
  | [] => []
  | item :: rest => ofDocument item :: ofDocuments rest

/- The schemas of the values of a row. -/
def ofRow
    {names : List String} :
    OrderedMap.Row Document names → OrderedMap.Row Schema names
  | .nil => .nil
  | .cons key value rest hNew =>
    .cons key (ofDocument value) (ofRow rest) hNew

end

mutual

/- A schema with its removals shown as objects that name the place. -/
def outline : Schema → Document
  | null => .null
  | bool value => .bool value
  | number value => .number value
  | string value => .string value
  | array items => .array (outlines items)
  | object ⟨names, row⟩ => .object ⟨names, outlineRow row⟩
  | removal span => .object (.single "$undefined" (.string span.place))

/- The elements of a list with their removals shown. -/
def outlines : List Schema → List Document
  | [] => []
  | item :: rest => outline item :: outlines rest

/- The values of a row with their removals shown. -/
def outlineRow
    {names : List String} :
    OrderedMap.Row Schema names → OrderedMap.Row Document names
  | .nil => .nil
  | .cons key value rest hNew =>
    .cons key (outline value) (outlineRow rest) hNew

end

end SchemaLang.Schema
