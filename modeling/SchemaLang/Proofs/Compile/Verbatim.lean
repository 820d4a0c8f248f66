import SchemaLang.Compile.Declared
import SchemaLang.Proofs.Compile.Equations
import SchemaLang.Proofs.Compile.Outcome
import SchemaLang.Proofs.OrderedMap
import SchemaLang.Schema.Document

/-
  Documents that are written down as they are, behind `!!`. No part
  of such a document is looked up or judged as a schema, whatever its
  strings and keys are: the document is what it is compiled to.

  Main declarations:
    * `Json`
    * `Json.written` and `Json.document`
    * `Compile.literal_written`
    * `Compile.compile_written`
-/

namespace SchemaLang

------------------------------------------------------------
-- Documents With Binary Numbers
------------------------------------------------------------

/- A JSON value whose numbers are those of a number literal. -/
inductive Json
  | null
  | bool (value : Bool)
  | number (value : Binary64)
  | string (value : String)
  | array (items : List Json)
  | object (fields : OrderedMap Json)

namespace Json

mutual

/- Whether all numbers are finite. -/
def isProper : Json → Bool
  | number value => value.isFinite
  | array items => itemsAreProper items
  | object ⟨_, row⟩ => rowIsProper row
  | _ => true

/- Whether this is so in all items. -/
def itemsAreProper : List Json → Bool
  | [] => true
  | item :: rest => isProper item && itemsAreProper rest

/- Whether this is so in all values of a row. -/
def rowIsProper
    {names : List String} : OrderedMap.Row Json names → Bool
  | .nil => true
  | .cons _ value rest _ => isProper value && rowIsProper rest

end

mutual

/-
  The literal for a value. Keys are strings, and a negative number
  is a minus and a number.
-/
def written : Json → Expr
  | null => ⟨.null, {}⟩
  | bool value => ⟨.boolean value, {}⟩
  | number value => Expr.ofBinary64 value
  | string value => ⟨.string value, {}⟩
  | array items => ⟨.array (writtenItems items), {}⟩
  | object ⟨_, row⟩ => ⟨.object (writtenRow row), {}⟩

/- The literals for all items. -/
def writtenItems : List Json → List Expr
  | [] => []
  | item :: rest => written item :: writtenItems rest

/- The properties of an object literal. -/
def writtenRow
    {names : List String} : OrderedMap.Row Json names → List Member
  | .nil => []
  | .cons key value rest _ =>
    .property (.string key) false (written value) {} {} ::
      writtenRow rest

end

mutual

/- The value as a schema. -/
def schema : Json → Schema
  | null => .null
  | bool value => .bool value
  | number value => .ofBinary64 value
  | string value => .string value
  | array items => .array (itemSchemas items)
  | object ⟨names, row⟩ => .object ⟨names, schemaRow row⟩

/- All items as schemas. -/
def itemSchemas : List Json → List Schema
  | [] => []
  | item :: rest => schema item :: itemSchemas rest

/- All values of a row as schemas. -/
def schemaRow
    {names : List String} :
    OrderedMap.Row Json names → OrderedMap.Row Schema names
  | .nil => .nil
  | .cons key value rest hNew =>
    .cons key (schema value) (schemaRow rest) hNew

end

/- A number in a document; what is not finite is null there. -/
def numberDocument
    (value : Binary64) : Document :=
  match Numeral.ofBinary64? value with
  | some numeral => .number numeral
  | none => .null

mutual

/- The value as a document, its keys in the same order. -/
def document : Json → Document
  | null => .null
  | bool value => .bool value
  | number value => numberDocument value
  | string value => .string value
  | array items => .array (itemDocuments items)
  | object ⟨names, row⟩ => .object ⟨names, documentRow row⟩

/- All items as documents. -/
def itemDocuments : List Json → List Document
  | [] => []
  | item :: rest => document item :: itemDocuments rest

/- All values of a row as documents. -/
def documentRow
    {names : List String} :
    OrderedMap.Row Json names → OrderedMap.Row Document names
  | .nil => .nil
  | .cons key value rest hNew =>
    .cons key (document value) (documentRow rest) hNew

end

theorem toDocument_ofBinary64
    (value : Binary64) :
    (Schema.ofBinary64 value).toDocument =
      .ok (numberDocument value) := by
  unfold Schema.ofBinary64 numberDocument
  cases Numeral.ofBinary64? value <;> rfl

mutual

/- A value leaves no removal in its schema. -/
theorem toDocument_schema
    (value : Json) :
    value.schema.toDocument = .ok value.document := by
  cases value with
  | number value => exact toDocument_ofBinary64 value
  | array items =>
      rw [schema, document, Schema.toDocument,
        toDocuments_itemSchemas items]
      rfl
  | object fields =>
      rw [schema, document, Schema.toDocument, toRow_schemaRow fields.row]
      rfl
  | _ => rfl

theorem toDocuments_itemSchemas
    (items : List Json) :
    Schema.toDocuments (itemSchemas items) =
      .ok (itemDocuments items) := by
  cases items with
  | nil => rfl
  | cons item rest =>
      rw [itemSchemas, itemDocuments, Schema.toDocuments,
        toDocument_schema item, toDocuments_itemSchemas rest]
      rfl

theorem toRow_schemaRow
    {names : List String}
    (row : OrderedMap.Row Json names) :
    Schema.toRow (schemaRow row) = .ok (documentRow row) := by
  cases row with
  | nil => rfl
  | cons key value rest hNew =>
      rw [schemaRow, documentRow, Schema.toRow, toDocument_schema value,
        toRow_schemaRow rest]
      rfl

end

end Json

------------------------------------------------------------
-- Literals
------------------------------------------------------------

namespace Expr

theorem isUndefined_ofBinary64
    (value : Binary64) :
    (ofBinary64 value).isUndefined = false := by
  unfold ofBinary64
  split <;> rfl

/- The literal for a finite number has its value. -/
theorem number?_ofBinary64
    {value : Binary64}
    (hFinite : value.isFinite = true) :
    (ofBinary64 value).number? = some value := by
  have hNegated : value.negate.isFinite = true := hFinite
  have hTwice : value.negate.negate = value := by
    simp [Binary64.negate]
  unfold ofBinary64
  split
  · simp [number?, hNegated, hTwice]
  · simp [number?, hFinite]

end Expr

namespace Compile

variable {compiler : Compiler}
variable {expand : Expand}
variable {registry : Registry}

theorem literal_ofBinary64
    {value : Binary64}
    (hFinite : value.isFinite = true) :
    Yields registry (literal compiler expand (.ofBinary64 value))
      (.ofBinary64 value) := by
  rw [literal.eq_def, Expr.isUndefined_ofBinary64,
    Expr.number?_ofBinary64 hFinite]
  exact .pure _

mutual

/- The literal for a value is taken as the value that it is. -/
theorem literal_written
    (value : Json)
    (hProper : value.isProper = true) :
    Yields registry (literal compiler expand value.written)
      value.schema := by
  cases value with
  | number value => exact literal_ofBinary64 hProper
  | array items =>
      rw [Json.isProper] at hProper
      rw [Json.written, Json.schema, literal.eq_def]
      exact (literalAll_written items hProper).bind (.pure _)
  | object fields =>
      rw [Json.isProper] at hProper
      rw [Json.written, Json.schema, literal_object]
      exact (literalMembers_writtenFields fields hProper).bind (.pure _)
  | null =>
      rw [Json.written, literal.eq_def]
      exact .pure _
  | bool value =>
      rw [Json.written, literal.eq_def]
      exact .pure _
  | string value =>
      rw [Json.written, literal.eq_def]
      exact .pure _

theorem literalAll_written
    (items : List Json)
    (hProper : Json.itemsAreProper items = true) :
    Yields registry (literalAll compiler expand (Json.writtenItems items))
      (Json.itemSchemas items) := by
  cases items with
  | nil =>
      rw [Json.writtenItems, literalAll]
      exact .pure _
  | cons item rest =>
      rw [Json.itemsAreProper, Bool.and_eq_true] at hProper
      rw [Json.writtenItems, literalAll]
      refine (literal_written item hProper.1).bind ?_
      exact (literalAll_written rest hProper.2).bind (.pure _)

/- The values go into the map of those that were taken before. -/
theorem literalMembers_written
    {names : List String}
    (row : OrderedMap.Row Json names)
    (before : Fields)
    (hProper : Json.rowIsProper row = true) :
    Yields registry
      (literalMembers compiler expand before (Json.writtenRow row))
      (before.insertAll (Json.schemaRow row).toPairs) := by
  cases row with
  | nil =>
      rw [Json.writtenRow, literalMembers]
      exact .pure _
  | cons key value rest hNew =>
      rw [Json.rowIsProper, Bool.and_eq_true] at hProper
      rw [Json.writtenRow, literalMembers]
      refine (Yields.check rfl).bind
        ((literal_written value hProper.1).bind ?_)
      exact literalMembers_written rest (before.insert key value.schema)
        hProper.2

theorem literalMembers_writtenFields
    (fields : OrderedMap Json)
    (hProper : Json.rowIsProper fields.row = true) :
    Yields registry
      (literalMembers compiler expand .empty (Json.writtenRow fields.row))
      ⟨fields.keys, Json.schemaRow fields.row⟩ := by
  have hSame :=
    OrderedMap.ofList_toList ⟨fields.keys, Json.schemaRow fields.row⟩
  rw [← hSame]
  exact literalMembers_written fields.row .empty hProper

end

/-
  A proper object, written as a literal behind `!!`, is compiled
  without giving names, and the document of its schema is the object:
  with the same keys in the same order, and each number as it is kept
  in documents. The compiler, the names given so far, those that are
  being resolved, and how `!!` is written do not matter.
-/
theorem compile_written
    (compiler : Compiler)
    (registry : Registry)
    (fields : OrderedMap Json)
    (hProper : (Json.object fields).isProper = true)
    (inner outer : Note) :
    let verbatim : Expr :=
      ⟨.unary .not ⟨.unary .not (Json.object fields).written, inner⟩,
        outer⟩
    ∃ schema,
      outcome (compile compiler verbatim) registry =
          (.ok schema, registry) ∧
        (∀ expand,
          outcome (expr compiler expand verbatim) registry =
            (.ok schema, registry)) ∧
        schema.toDocument = .ok (Json.object fields).document := by
  intro verbatim
  rw [Json.isProper] at hProper
  have hYields :
      ∀ expand, Yields registry (expr compiler expand verbatim)
        (Json.object fields).schema := by
    intro expand
    simp only [verbatim, Json.written]
    rw [expr]
    exact (literalMembers_writtenFields fields hProper).bind (.pure _)
  refine ⟨(Json.object fields).schema, ?_, hYields,
    Json.toDocument_schema _⟩
  unfold compile
  rw [outcome_bind, outcome_get]
  exact hYields _

/- Keys and strings that mean something elsewhere, and odd numbers. -/
def awkward : OrderedMap Json :=
  .of
    [("undefined", .null),
      ("title", .number (Binary64.ofRatio true 3 2)),
      ("$ref",
        .array
          [.object
              (.of
                [("description", .string "undefined"),
                  ("$id", .bool true)]),
            .number (Binary64.zero true)]),
      ("required", .number (Binary64.ofRatio true 3 1)),
      ("properties", .object .empty)]

/- The numbers are -1.5, which is no integer, -0.0 and -3.0. -/
theorem compile_written_awkward :
    (Json.object awkward).isProper = true ∧
      ∃ schema,
        outcome
            (compile {}
              ⟨.unary .not
                ⟨.unary .not (Json.object awkward).written, {}⟩, {}⟩)
            Registry.initial = (.ok schema, Registry.initial) ∧
          schema.toDocument =
            .ok (.object
              (.of
                [("undefined", .null),
                  ("title",
                    .number (.real ⟨true, 1023, 2251799813685248⟩)),
                  ("$ref",
                    .array
                      [.object
                          (.of
                            [("description", .string "undefined"),
                              ("$id", .bool true)]),
                        .number (.integer 0)]),
                  ("required", .number (.integer (-3))),
                  ("properties", .object .empty)])) := by
  have hProper : (Json.object awkward).isProper = true := by decide
  rcases compile_written {} Registry.initial awkward hProper {} {} with
    ⟨schema, hCompiled, -, hDocument⟩
  have hHalves :
      Numeral.ofBinary64? (Binary64.ofRatio true 3 2) =
        some (.real ⟨true, 1023, 2251799813685248⟩) := by
    decide +kernel
  have hZero :
      Numeral.ofBinary64? (Binary64.zero true) = some (.integer 0) := by
    decide +kernel
  have hThree :
      Numeral.ofBinary64? (Binary64.ofRatio true 3 1) =
        some (.integer (-3)) := by
    decide +kernel
  refine ⟨hProper, schema, hCompiled, ?_⟩
  rw [hDocument]
  simp [awkward, Json.document, Json.itemDocuments, Json.documentRow,
    Json.numberDocument, OrderedMap.of, OrderedMap.empty,
    OrderedMap.Row.ofPairs, hHalves, hZero, hThree]

end Compile

end SchemaLang
