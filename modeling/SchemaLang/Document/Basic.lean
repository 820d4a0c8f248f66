import SchemaLang.Number.Numeral
import SchemaLang.OrderedMap

/-
  This file defines documents: plain JSON values whose objects
  keep the order of their keys.

  Key definitions include:
    * `Document`
-/

namespace SchemaLang

/- A JSON value. -/
inductive Document
  | null
  | bool (value : Bool)
  | number (value : Numeral)
  | string (value : String)
  | array (items : List Document)
  | object (fields : OrderedMap Document)

end SchemaLang
