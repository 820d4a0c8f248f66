import Mathlib.Tactic.Common
import SchemaLang.Compile.Member
import SchemaLang.Operation.Selection
import SchemaLang.Proofs.OrderedMap

/-
  The entries of an object schema that holds nothing besides its
  properties, and what the operations of object literals do to
  the required names and to the properties. To pick and to drop
  properties is to choose them in one way or another.

  Main declarations:
    * `Fields.ofProperties`
    * `Fields.toggleRequired_ofProperties`
    * `Fields.insertProperty_ofProperties`
    * `Fields.removeProperty_ofProperties`
    * `Fields.choosing`
    * `Fields.pick_eq_choosing` and `Fields.drop_eq_choosing`
    * `Reconciled.mem_demand`
    * `Member.describe_cases` and `Member.describe_ofProperties`
-/

namespace SchemaLang

------------------------------------------------------------
-- Required Names
------------------------------------------------------------

namespace Reconciled

/- Exactly the name that is demanded changes. -/
theorem mem_demand
    {required : List String}
    {name other : String}
    {wanted : Bool} :
    other ∈ demand required name wanted ↔
      if other = name then wanted = true else other ∈ required := by
  cases wanted with
  | false =>
      by_cases hName : other = name
      · simp [demand, Fields.without, hName]
      · simp [demand, Fields.without, hName]
  | true =>
      by_cases hMember : name ∈ required
      · by_cases hName : other = name
        · simp [demand, hName, hMember]
        · simp [demand, hName, hMember]
      · by_cases hName : other = name
        · simp [demand, hName, hMember]
        · simp [demand, hName, hMember]

end Reconciled

------------------------------------------------------------
-- Objects Of Properties
------------------------------------------------------------

namespace Fields

/- The entries of an object with required names and properties. -/
def ofProperties
    (required : List String)
    (properties : Fields) : Fields := .of
  [("type", .string "object"), ("additionalProperties", .bool false),
    ("required", .strings required), ("properties", .object properties)]

theorem skeleton_eq :
    skeleton = ofProperties [] .empty := rfl

@[simp] theorem stringsOf_map_string
    (names : List String) :
    stringsOf (names.map Schema.string) = names := by
  simp [stringsOf, List.filterMap_map, Function.comp_def,
    Schema.string?]

@[simp] theorem requiredNames_ofProperties
    (required : List String)
    (properties : Fields) :
    requiredNames (ofProperties required properties) = required := by
  simp [requiredNames, ofProperties, Schema.strings]

@[simp] theorem properties?_ofProperties
    (required : List String)
    (properties : Fields) :
    properties? (ofProperties required properties) =
      some properties := by
  simp [properties?, ofProperties, Schema.fields?]

theorem setRequired_ofProperties
    (required names : List String)
    (properties : Fields) :
    setRequired (ofProperties required properties) names =
      ofProperties names properties := by
  simp [setRequired, ofProperties, OrderedMap.insert]

theorem without_of_not_mem
    {names : List String}
    {name : String}
    (hName : name ∉ names) :
    without names name = names := by
  apply List.filter_eq_self.mpr
  intro other hOther
  have hNe : other ≠ name := by
    intro h
    exact hName (h ▸ hOther)
  simpa using hNe

/- A name is required, or it is not, and all else stays. -/
theorem toggleRequired_ofProperties
    (required : List String)
    (properties : Fields)
    (name : String)
    (wanted : Bool) :
    toggleRequired (ofProperties required properties) name wanted =
      ofProperties (Reconciled.demand required name wanted)
        properties := by
  unfold toggleRequired Reconciled.demand
  by_cases hMember : name ∈ required
  · cases wanted with
    | false => simp [hMember, setRequired_ofProperties]
    | true => simp [hMember]
  · cases wanted with
    | false => simp [hMember, without_of_not_mem hMember]
    | true => simp [hMember, setRequired_ofProperties]

theorem insertProperty_ofProperties
    (required : List String)
    (properties : Fields)
    (name : String)
    (value : Schema) :
    insertProperty (ofProperties required properties) name value =
      ofProperties required (properties.insert name value) := by
  unfold insertProperty
  rw [properties?_ofProperties]
  simp [ofProperties, OrderedMap.insert]

theorem removeProperty_ofProperties
    (required : List String)
    (properties : Fields)
    (name : String) :
    removeProperty (ofProperties required properties) name =
      ofProperties required (properties.erase name) := by
  unfold removeProperty
  rw [properties?_ofProperties]
  simp [ofProperties, OrderedMap.insert]

/- Describe one of several properties. -/
def describedAt
    (properties : Fields)
    (name : String)
    (comments : List Comment) : Fields :=
  match properties.get? name with
  | none => properties
  | some value => properties.insert name (value.describe comments)

theorem describeProperty_ofProperties
    (required : List String)
    (properties : Fields)
    (name : String)
    (comments : List Comment) :
    describeProperty (ofProperties required properties) name comments =
      ofProperties required (describedAt properties name comments) := by
  unfold describeProperty describedAt
  rw [properties?_ofProperties]
  cases hGet : properties.get? name with
  | none => simp [hGet]
  | some value => simp [hGet, ofProperties, OrderedMap.insert]

/- A description is given to one property only. -/
theorem get?_describedAt
    (properties : Fields)
    (name key : String)
    (comments : List Comment) :
    (describedAt properties name comments).get? key =
      (properties.get? key).map fun value =>
        if name = key then value.describe comments else value := by
  unfold describedAt
  cases hGet : properties.get? name with
  | none =>
      by_cases hKey : name = key
      · subst hKey
        simp [hGet]
      · simp [hKey]
  | some value =>
      by_cases hKey : name = key
      · subst hKey
        simp [hGet, OrderedMap.get?_insert]
      · simp [hKey, OrderedMap.get?_insert]

------------------------------------------------------------
-- Chosen Properties
------------------------------------------------------------

/- Change the required names, where such names are listed. -/
def changeRequired
    (fields : Fields)
    (change : List String → List String) : Fields :=
  if fields.contains "required" then
    setRequired fields (change (requiredNames fields))
  else fields

/- Change the required names and choose from the properties. -/
def choosing
    (fields : Fields)
    (change : List String → List String)
    (choose : Fields → Fields) : Fields :=
  let changed := fields.changeRequired change
  match properties? changed with
  | none => changed
  | some properties =>
    changed.insert "properties" (.object (choose properties))

/- The properties that are selected, under their new names. -/
def picked
    (properties : Fields)
    (selected : Call.Selection) : Pairs Schema :=
  properties.toList.filterMap fun entry =>
    (selected.get? entry.1).map fun renamed => (renamed, entry.2)

theorem pick_eq_choosing
    (fields : Fields)
    (selected : Call.Selection) :
    pick fields selected =
      fields.choosing (·.filterMap selected.get?)
        fun properties => .ofList (picked properties selected) := rfl

theorem drop_eq_choosing
    (fields : Fields)
    (names : List String) :
    drop fields names =
      fields.choosing (·.filter fun name => !names.contains name)
        fun properties =>
          properties.filter fun entry => !names.contains entry.1 := rfl

theorem choosing_ofProperties
    (required : List String)
    (properties : Fields)
    (change : List String → List String)
    (choose : Fields → Fields) :
    choosing (ofProperties required properties) change choose =
      ofProperties (change required) (choose properties) := by
  have hContains :
      OrderedMap.contains (ofProperties required properties) "required" =
        true := rfl
  unfold choosing changeRequired
  rw [if_pos hContains, requiredNames_ofProperties,
    setRequired_ofProperties]
  dsimp only
  rw [properties?_ofProperties]
  rfl

end Fields

------------------------------------------------------------
-- Comments
------------------------------------------------------------

/- A description leaves all other keys as they are. -/
theorem Schema.exists_describe_object
    (fields : Fields)
    (comments : List Comment) :
    ∃ described : Fields,
      (Schema.object fields).describe comments = .object described ∧
        ∀ key, key ≠ "description" →
          described.get? key = fields.get? key := by
  unfold Schema.describe Schema.mapFields
  split
  · exact ⟨fields, rfl, fun _ _ => rfl⟩
  · dsimp only
    split
    · exact ⟨fields, rfl, fun _ _ => rfl⟩
    · refine ⟨_, rfl, fun key hKey => ?_⟩
      exact (OrderedMap.get?_insertFirst ..).trans (if_neg (Ne.symm hKey))

/- A schema is described once, by the first comments that there are. -/
theorem Schema.describe_describe
    (schema : Schema)
    (first second : List Comment) :
    (schema.describe first).describe second =
      schema.describe (if first.isEmpty then second else first) := by
  cases first with
  | nil => rfl
  | cons comment rest =>
      cases second with
      | nil => rfl
      | cons other others =>
          cases schema with
          | object fields =>
              cases hGet : OrderedMap.get? fields "description" with
              | none =>
                  simp [describe, mapFields, OrderedMap.contains,
                    OrderedMap.insertFirst, hGet]
              | some text =>
                  simp [describe, mapFields, OrderedMap.contains, hGet]
          | _ => simp [describe, mapFields]

/-
  The comments of a member describe its own schema, and perhaps
  that of one property in front of it.
-/
theorem Member.describe_cases
    (fields : Fields)
    (value : Schema)
    (comments : Comments)
    (previous : Option Member) :
    ∃ others own,
      Member.describe fields value comments previous =
        (others, value.describe own) ∧
      (others = fields ∨
        ∃ name first, others = Fields.describeProperty fields name first) := by
  unfold Member.describe
  split
  · exact ⟨fields, comments.trailing, rfl, .inl rfl⟩
  · rename_i first later hLeading
    split
    · exact ⟨fields, comments.leading, rfl, .inl rfl⟩
    · rename_i name hName
      cases name with
      | none =>
          by_cases hLater : later.isEmpty = true
          · exact ⟨fields, comments.trailing, by simp [hLater], .inl rfl⟩
          · exact ⟨fields, later, by simp [hLater], .inl rfl⟩
      | some name =>
          by_cases hLater : later.isEmpty = true
          · exact ⟨_, comments.trailing, by simp [hLater],
              .inr ⟨name, [first], rfl⟩⟩
          · exact ⟨_, later, by simp [hLater],
              .inr ⟨name, [first], rfl⟩⟩

theorem Member.describe_ofProperties
    (required : List String)
    (properties : Fields)
    (value : Schema)
    (comments : Comments)
    (previous : Option Member) :
    ∃ others own,
      Member.describe (Fields.ofProperties required properties) value
          comments previous =
        (Fields.ofProperties required others, value.describe own) ∧
      (others = properties ∨
        ∃ name first, others = Fields.describedAt properties name first) := by
  rcases Member.describe_cases (Fields.ofProperties required properties)
      value comments previous with ⟨_, own, hSame, rfl | ⟨name, first, rfl⟩⟩
  · exact ⟨properties, own, hSame, .inl rfl⟩
  · rw [Fields.describeProperty_ofProperties] at hSame
    exact ⟨_, own, hSame, .inr ⟨name, first, rfl⟩⟩

end SchemaLang
