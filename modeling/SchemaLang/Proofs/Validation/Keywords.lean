import SchemaLang.Compile.Basic
import SchemaLang.Proofs.Schema.Properties
import SchemaLang.Proofs.Validation.Rules

/-
  The documents that the schemas written by the compiler accept,
  one statement for each shape of schema.

  Main declarations:
    * `Validator.accepts_describe`
    * `Validator.accepts_anyOf`, `Validator.accepts_allOf` and
      `Validator.accepts_oneOf`
    * `Validator.accepts_conditional`
    * `Validator.accepts_ofProperties`
    * `Validator.accepts_tuple`
-/

namespace SchemaLang

namespace Validator

variable (validator : Validator)

------------------------------------------------------------
-- Readings
------------------------------------------------------------

@[simp] theorem sense_value
    (schema : Schema) :
    (sense validator schema).value = schema := by
  cases schema <;> rfl

@[simp] theorem itemSchemas_eq
    (items : List Schema) :
    itemSchemas validator items = items.map (accepts validator) := by
  induction items with
  | nil => rfl
  | cons item rest ih =>
      simp only [itemSchemas, ih, List.map_cons]
      rfl

theorem senseRow_eq
    {names : List String}
    (row : OrderedMap.Row Schema names) :
    senseRow validator row = row.mapValues (sense validator) := by
  induction row with
  | nil => rfl
  | cons key value rest hNew ih =>
      rw [senseRow, OrderedMap.Row.mapValues, ih]

@[simp] theorem get?_fieldSenses
    (fields : Fields)
    (key : String) :
    (fieldSenses validator fields).get? key =
      (fields.get? key).map (sense validator) :=
  OrderedMap.get?_mapValues (sense validator) fields key

@[simp] theorem sense_schema
    (schema : Schema) :
    (sense validator schema).schema = accepts validator schema := rfl

@[simp] theorem sense_array_schemas
    (items : List Schema) :
    (sense validator (.array items)).schemas =
      items.map (accepts validator) :=
  itemSchemas_eq validator items

@[simp] theorem sense_object_named
    (fields : Fields) :
    (sense validator (.object fields)).named =
      fields.mapValues (accepts validator) := by
  apply OrderedMap.ext_toList
  rw [sense, senseRow_eq, OrderedMap.toList_mapValues,
    OrderedMap.toList_mapValues]
  unfold OrderedMap.toList
  rw [OrderedMap.Row.toPairs_mapValues, List.map_map]
  rfl

theorem accepts_object
    (fields : Fields)
    (v : Document) :
    accepts validator (.object fields) v =
      holds validator (fieldSenses validator fields) v := by
  rw [accepts, sense, senseRow_eq]
  rfl

@[simp] theorem accepts_bool
    (value : Bool)
    (v : Document) :
    accepts validator (.bool value) v = value := rfl

------------------------------------------------------------
-- Values And Branches
------------------------------------------------------------

section Shapes

attribute [local simp] accepts_object holds valueRules numberRules
  textRules arrayRules objectRules branchRules stated limited

/- Without a keyword on items there is no rule on items. -/
@[simp] theorem itemRules_of_absent
    {entries : OrderedMap Sense}
    (items : List Document)
    (hItems : entries.get? "items" = none)
    (hFirst : entries.get? "prefixItems" = none)
    (hLater : entries.get? "additionalItems" = none) :
    itemRules validator entries items = true := by
  unfold itemRules
  split <;> simp [hItems, hFirst, hLater]

/- A description says nothing about documents. -/
theorem accepts_description
    (text : Schema)
    (fields : Fields)
    (v : Document) :
    accepts validator (.object (fields.insertFirst "description" text)) v =
      accepts validator (.object fields) v := by
  simp [itemRules, positions, isKnown, OrderedMap.get?_insertFirst]

/- Comments do not change what a schema accepts. -/
@[simp] theorem accepts_describe
    (comments : List Comment)
    (schema : Schema)
    (v : Document) :
    accepts validator (schema.describe comments) v =
      accepts validator schema v := by
  unfold Schema.describe
  split
  · rfl
  · cases schema with
    | object fields =>
        simp only [Schema.mapFields]
        split
        · rfl
        · exact accepts_description validator _ fields v
    | _ => rfl

theorem accepts_const
    (value : Schema)
    (v : Document) :
    accepts validator (.object (.single "const" value)) v =
      Sense.isEqual value v := by
  cases v <;> simp

theorem accepts_type
    (type : String)
    (v : Document) :
    accepts validator (.object (.single "type" (.string type))) v =
      v.hasType type := by
  cases v <;> simp

theorem accepts_enum
    (type : String)
    (items : List Schema)
    (v : Document) :
    accepts validator
        (.object (.of [("type", .string type), ("enum", .array items)])) v =
      (v.hasType type && items.any fun item => Sense.isEqual item v) := by
  cases v <;> simp

theorem accepts_anyOf
    (branches : List Schema)
    (v : Document) :
    accepts validator (.object (.single "anyOf" (.array branches))) v =
      branches.any fun branch => accepts validator branch v := by
  cases v <;> simp [List.any_map, Function.comp_def]

theorem accepts_allOf
    (branches : List Schema)
    (v : Document) :
    accepts validator (.object (.single "allOf" (.array branches))) v =
      branches.all fun branch => accepts validator branch v := by
  cases v <;> simp [List.all_map, Function.comp_def]

theorem accepts_oneOf
    (branches : List Schema)
    (v : Document) :
    accepts validator (.object (.single "oneOf" (.array branches))) v =
      (branches.countP (accepts validator · v) == 1) := by
  cases v <;> simp [List.countP_map, Function.comp_def]

theorem accepts_conditional
    (test consequent alternate : Schema)
    (v : Document) :
    accepts validator (.ifThenElse test consequent alternate) v =
      if accepts validator test v then accepts validator consequent v
      else accepts validator alternate v := by
  cases hTest : accepts validator test v <;> cases v <;> simp [hTest]

/-
  An object of properties has all required names, and each of its
  names is a property that accepts the name's value.
-/
theorem accepts_ofProperties
    (required : List String)
    (properties : Fields)
    (v : Document) :
    accepts validator
        (.object (Fields.ofProperties required properties)) v = true ↔
      ∃ fields, v = .object fields ∧
        (∀ name ∈ required, name ∈ fields.keys) ∧
        ∀ field ∈ fields.toList, ∃ schema,
          properties.get? field.1 = some schema ∧
            accepts validator schema field.2 = true := by
  cases v with
  | object fields =>
      have hNamed :
          ∀ name,
            (properties.mapValues (accepts validator)).get? name =
              (properties.get? name).map (accepts validator) :=
        fun name => OrderedMap.get?_mapValues _ properties name
      have hKnown :
          ∀ name,
            isKnown validator
                (fieldSenses validator
                  (Fields.ofProperties required properties)) name =
              (properties.get? name).isSome := by
        intro name
        simp [isKnown, Fields.ofProperties, OrderedMap.contains, hNamed]
      have hNames :
          (sense validator (.strings required)).names = required := by
        simp [Sense.names, Schema.strings]
      have hField :
          ∀ field : String × Document,
            ((properties.get? field.1).all
                  (accepts validator · field.2) = true ∧
                (properties.get? field.1).isSome = true) ↔
              ∃ schema,
                properties.get? field.1 = some schema ∧
                  accepts validator schema field.2 = true := by
        intro field
        cases properties.get? field.1 <;> simp
      have hAccepts :
          accepts validator
              (.object (Fields.ofProperties required properties))
              (.object fields) =
            (required.all (OrderedMap.contains fields) &&
              (fields.toList.all fun field =>
                (properties.get? field.1).all
                  (accepts validator · field.2)) &&
              fields.toList.all fun field =>
                (properties.get? field.1).isSome) := by
        simp only [accepts_object, objectRules, holds, hKnown]
        simp [Fields.ofProperties, Document.hasType, hNamed, hNames,
          Option.all_map]
      simp only [hAccepts, Bool.and_eq_true, List.all_eq_true,
        OrderedMap.contains_iff, Document.object.injEq,
        exists_eq_left', and_assoc]
      rw [← forall₂_and]
      simp only [hField]
  | _ => simp [Fields.ofProperties, Document.hasType]

------------------------------------------------------------
-- Arrays
------------------------------------------------------------

/- Whether a list has as many items as an exact array has elements. -/
def hasLength
    (exact : Bool)
    (count : Nat)
    (items : List Document) : Bool :=
  !exact || (decide (count ≤ items.length) && decide (items.length ≤ count))

attribute [local simp] Compile.arrayFields Document.hasType hasLength
  Sense.number? Numeral.value OrderedMap.insert

/- The documents in an array of a length, if it is exact. -/
theorem accepts_arrayFields
    (count : Nat)
    (exact : Bool)
    (v : Document) :
    accepts validator (.object (Compile.arrayFields count exact)) v =
      match v with
      | .array items => hasLength exact count items
      | _ => false := by
  cases exact <;> cases v <;> simp

/- All items are as a schema says. -/
theorem accepts_items
    (count : Nat)
    (exact : Bool)
    (element : Fields)
    (v : Document) :
    accepts validator
        (.object (OrderedMap.insert (Compile.arrayFields count exact)
          "items" (.object element))) v =
      match v with
      | .array items =>
        hasLength exact count items &&
          items.all (accepts validator (.object element))
      | _ => false := by
  cases exact <;> cases v <;> simp
  all_goals
    cases hVersion : validator.version <;>
      simp [itemRules, hVersion, positions, Sense.isList]

/- Some item is as a schema says. -/
theorem accepts_contains
    (count : Nat)
    (element : Schema)
    (v : Document) :
    accepts validator
        (.object (OrderedMap.insert (Compile.arrayFields count false)
          "contains" element)) v =
      match v with
      | .array items => items.any (accepts validator element)
      | _ => false := by
  cases v <;> simp

theorem accepts_tuple
    (count : Nat)
    (exact : Bool)
    (schemas : List Schema)
    (v : Document) :
    accepts validator
        (.object (OrderedMap.insert (Compile.arrayFields count exact)
          (Compile.tupleKeys validator.version).1 (.array schemas))) v =
      match v with
      | .array items =>
        hasLength exact count items &&
          positional (schemas.map (accepts validator)) items
      | _ => false := by
  cases hVersion : validator.version <;> cases exact <;> cases v <;>
    simp [Compile.tupleKeys, itemRules, hVersion, Sense.isList]

theorem accepts_tuple_rest
    (count : Nat)
    (schemas : List Schema)
    (others : Schema)
    (v : Document) :
    accepts validator
        (.object (OrderedMap.insert
          (OrderedMap.insert (Compile.arrayFields count false)
            (Compile.tupleKeys validator.version).1 (.array schemas))
          (Compile.tupleKeys validator.version).2 others)) v =
      match v with
      | .array items =>
        positional (schemas.map (accepts validator)) items &&
          (items.drop schemas.length).all (accepts validator others)
      | _ => false := by
  cases hVersion : validator.version <;> cases v <;>
    simp [Compile.tupleKeys, itemRules, hVersion, positions, Sense.isList]

end Shapes

end Validator

end SchemaLang
