import Mathlib.Data.List.Forall2
import Mathlib.Tactic.Common
import SchemaLang.Proofs.OrderedMap
import SchemaLang.Schema.Property

/-
  What is seen of a schema. A view may hide descriptions, and it may
  show the places of removals in another way. Two schemas that are
  seen alike stay so when the same is done to both of them.

  Main declarations:
    * `View`
    * `Schema.seen` and `Schema.seenFields`
    * `View.Same` and `View.SameFields`
    * `View.SameFields.insert` and `View.Same.setKey`
    * `View.Same.kind`
    * `View.Same.describe`
    * `View.IsComplete`
-/

namespace SchemaLang

/-
  What is seen of a schema: whether descriptions are, and whether the
  name of descriptions is where names are required, and how the place
  of a removal is seen.
-/
structure View where
  descriptions : Bool := true
  demands : Bool := true
  place : Span → Span := id

namespace View

/- Whether a key is seen. -/
def shows
    (view : View)
    (key : String) : Bool :=
  view.descriptions || key != "description"

/- Whether a name is seen where names are required. -/
def lists
    (view : View)
    (name : String) : Bool :=
  view.demands || name != "description"

/- Names that are required are seen only if their keys are, too. -/
def IsFair
    (view : View) : Prop :=
  view.demands = true → view.descriptions = true

/- A list of names; a list of anything else is seen as it is. -/
def names
    (view : View) : Schema → Schema
  | .array items =>
    if items.all fun item => item.string?.isSome then
      .array (items.filter fun item => item.string?.all view.lists)
    else .array items
  | schema => schema

/- The value of a key. -/
def entry
    (view : View)
    (key : String)
    (value : Schema) : Schema :=
  if key = "required" then view.names value else value

end View

namespace Schema

mutual

/- What is seen of a schema. -/
def seen
    (view : View) : Schema → Schema
  | array items => array (seenItems view items)
  | object ⟨_, row⟩ => object (.ofList (seenRow view row))
  | removal span => removal (view.place span)
  | schema => schema

/- What is seen of the elements of a list. -/
def seenItems
    (view : View) : List Schema → List Schema
  | [] => []
  | item :: rest => seen view item :: seenItems view rest

/- What is seen of the entries of a row. -/
def seenRow
    (view : View)
    {names : List String} : OrderedMap.Row Schema names → Pairs Schema
  | .nil => []
  | .cons key value rest _ =>
    if view.shows key then
      (key, view.entry key (seen view value)) :: seenRow view rest
    else seenRow view rest

end

/- What is seen of entries. -/
def seenPairs
    (view : View) : Pairs Schema → Pairs Schema
  | [] => []
  | (key, value) :: rest =>
    if view.shows key then
      (key, view.entry key (seen view value)) :: seenPairs view rest
    else seenPairs view rest

theorem names_seenPairs
    (view : View)
    (pairs : Pairs Schema) :
    (seenPairs view pairs).names = pairs.names.filter view.shows := by
  induction pairs with
  | nil => rfl
  | cons entry rest ih =>
      rcases entry with ⟨key, value⟩
      by_cases hShown : view.shows key = true
      · simp [seenPairs, hShown, ih]
      · simp [seenPairs, hShown, ih]

theorem nodup_seenPairs
    (view : View)
    (fields : Fields) :
    (seenPairs view fields.toList).names.Nodup := by
  rw [names_seenPairs]
  exact fields.nodup_toList.filter _

/- What is seen of the entries of a map. -/
def seenFields
    (view : View)
    (fields : Fields) : Fields :=
  .of (seenPairs view fields.toList) (nodup_seenPairs view fields)

theorem toList_seenFields
    (view : View)
    (fields : Fields) :
    (seenFields view fields).toList = seenPairs view fields.toList :=
  OrderedMap.toList_of _ _

theorem seenRow_eq
    (view : View)
    {names : List String}
    (row : OrderedMap.Row Schema names) :
    seenRow view row = seenPairs view row.toPairs := by
  induction row with
  | nil => rfl
  | cons name value rest hNew ih =>
      rw [seenRow, OrderedMap.Row.toPairs, seenPairs, ih]

@[simp] theorem seen_object
    (view : View)
    (fields : Fields) :
    (object fields).seen view = object (seenFields view fields) := by
  rw [seen, seenRow_eq]
  refine congrArg object (OrderedMap.ext_toList ?_)
  rw [toList_seenFields]
  exact OrderedMap.toList_ofList_of_nodup (nodup_seenPairs view fields)

theorem seenItems_eq
    (view : View)
    (items : List Schema) :
    seenItems view items = items.map (seen view) := by
  induction items with
  | nil => rfl
  | cons item rest ih => rw [seenItems, ih, List.map_cons]

end Schema

open Schema (seen seenItems seenPairs seenFields)

------------------------------------------------------------
-- Parts Of Schemas
------------------------------------------------------------

namespace Schema

variable {view : View}

@[simp] theorem string?_seen
    (schema : Schema) :
    (schema.seen view).string? = schema.string? := by
  cases schema <;> rfl

@[simp] theorem fields?_seen
    (schema : Schema) :
    (schema.seen view).fields? = schema.fields?.map (seenFields view) := by
  cases schema with
  | object fields =>
      rw [seen_object]
      rfl
  | _ => rfl

@[simp] theorem isRemoval_seen
    (schema : Schema) :
    (schema.seen view).isRemoval = schema.isRemoval := by
  cases schema <;> rfl

@[simp] theorem isFalsy_seen
    (schema : Schema) :
    (schema.seen view).isFalsy = schema.isFalsy := by
  cases schema <;> rfl

/- The value of a key that is seen. -/
theorem get?_seenFields
    (fields : Fields)
    {key : String}
    (hShown : view.shows key = true) :
    OrderedMap.get? (seenFields view fields) key =
      (fields.get? key).map fun value =>
        view.entry key (value.seen view) := by
  unfold OrderedMap.get?
  rw [toList_seenFields]
  induction fields.toList with
  | nil => rfl
  | cons entry rest ih =>
      rcases entry with ⟨name, value⟩
      rw [seenPairs]
      by_cases hName : name = key
      · subst hName
        simp [hShown]
      · by_cases hOther : view.shows name = true
        · simp [hOther, hName, ih]
        · simp [hOther, hName, ih]

theorem seenPairs_insert
    (pairs : Pairs Schema)
    (key : String)
    (value : Schema) :
    seenPairs view (pairs.insert key value) =
      if view.shows key then
        (seenPairs view pairs).insert key
          (view.entry key (value.seen view))
      else seenPairs view pairs := by
  induction pairs with
  | nil =>
      by_cases hKey : view.shows key = true
      · simp [seenPairs, hKey]
      · simp [seenPairs, hKey]
  | cons entry rest ih =>
      rcases entry with ⟨name, old⟩
      by_cases hName : name = key
      · subst hName
        by_cases hKey : view.shows name = true
        · simp [seenPairs, hKey]
        · simp [seenPairs, hKey]
      · rw [Pairs.insert_cons, if_neg hName, seenPairs, seenPairs, ih]
        by_cases hKey : view.shows key = true
        · by_cases hOther : view.shows name = true
          · simp [hKey, hOther, hName]
          · simp [hKey, hOther]
        · simp [hKey]

/- A key is given a value in what is seen, if it is seen. -/
theorem seenFields_insert
    (fields : Fields)
    (key : String)
    (value : Schema) :
    seenFields view (fields.insert key value) =
      if view.shows key then
        OrderedMap.insert (seenFields view fields) key
          (view.entry key (value.seen view))
      else seenFields view fields := by
  apply OrderedMap.ext_toList
  rw [toList_seenFields, OrderedMap.toList_insert, seenPairs_insert]
  split
  · rw [OrderedMap.toList_insert, toList_seenFields]
  · rw [toList_seenFields]

theorem seenPairs_filter
    (pairs : Pairs Schema)
    (keeps : String → Bool) :
    seenPairs view (pairs.filter fun entry => keeps entry.1) =
      (seenPairs view pairs).filter fun entry => keeps entry.1 := by
  induction pairs with
  | nil => rfl
  | cons entry rest ih =>
      rcases entry with ⟨name, value⟩
      by_cases hKeep : keeps name = true
      · by_cases hShown : view.shows name = true
        · simp [seenPairs, hKeep, hShown, ih]
        · simp [seenPairs, hKeep, hShown, ih]
      · by_cases hShown : view.shows name = true
        · simp [seenPairs, hKeep, hShown, ih]
        · simp [seenPairs, hKeep, hShown, ih]

theorem seenFields_filter
    (fields : Fields)
    (keeps : String → Bool) :
    seenFields view (fields.filter fun entry => keeps entry.1) =
      (seenFields view fields).filter fun entry => keeps entry.1 := by
  apply OrderedMap.ext_toList
  rw [toList_seenFields, OrderedMap.toList_filter, seenPairs_filter,
    OrderedMap.toList_filter, toList_seenFields]

end Schema

------------------------------------------------------------
-- Schemas That Are Seen Alike
------------------------------------------------------------

namespace View

/- Two schemas are seen alike. -/
def Same
    (view : View)
    (schema schema' : Schema) : Prop :=
  schema.seen view = schema'.seen view

/- The elements of two lists are seen alike. -/
def SameItems
    (view : View)
    (items items' : List Schema) : Prop :=
  seenItems view items = seenItems view items'

/- Entries are seen alike. -/
def SamePairs
    (view : View)
    (pairs pairs' : Pairs Schema) : Prop :=
  seenPairs view pairs = seenPairs view pairs'

/- The entries of two maps are seen alike. -/
def SameFields
    (view : View)
    (fields fields' : Fields) : Prop :=
  seenFields view fields = seenFields view fields'

variable {view : View}

theorem Same.refl
    (schema : Schema) :
    view.Same schema schema := rfl

theorem sameFields_iff
    {fields fields' : Fields} :
    view.SameFields fields fields' ↔
      view.SamePairs fields.toList fields'.toList := by
  unfold SameFields SamePairs
  rw [← OrderedMap.toList_inj, Schema.toList_seenFields,
    Schema.toList_seenFields]

theorem SamePairs.cons
    {pairs pairs' : Pairs Schema}
    (hPairs : view.SamePairs pairs pairs')
    (key : String)
    {value value' : Schema}
    (hValue : view.Same value value') :
    view.SamePairs ((key, value) :: pairs) ((key, value') :: pairs') := by
  unfold SamePairs
  rw [seenPairs, seenPairs, hPairs, hValue]

theorem SamePairs.filter
    {pairs pairs' : Pairs Schema}
    (hPairs : view.SamePairs pairs pairs')
    (keeps : String → Bool) :
    view.SamePairs (pairs.filter fun entry => keeps entry.1)
      (pairs'.filter fun entry => keeps entry.1) := by
  unfold SamePairs
  rw [Schema.seenPairs_filter, Schema.seenPairs_filter, hPairs]

theorem same_array
    {items items' : List Schema}
    (hItems : view.SameItems items items') :
    view.Same (.array items) (.array items') := by
  unfold Same
  rw [seen, seen, hItems]

theorem same_object
    {fields fields' : Fields}
    (hFields : view.SameFields fields fields') :
    view.Same (.object fields) (.object fields') := by
  unfold Same
  rw [Schema.seen_object, Schema.seen_object, hFields]

theorem same_of
    {pairs pairs' : Pairs Schema}
    {hDistinct : pairs.names.Nodup}
    {hDistinct' : pairs'.names.Nodup}
    (hPairs : view.SamePairs pairs pairs') :
    view.Same (.object (.of pairs hDistinct))
      (.object (.of pairs' hDistinct')) := by
  apply same_object
  rw [sameFields_iff, OrderedMap.toList_of, OrderedMap.toList_of]
  exact hPairs

/- What is seen like a map is a map. -/
theorem Same.exists_fields
    {fields : Fields}
    {schema' : Schema}
    (hSame : view.Same (.object fields) schema') :
    ∃ fields',
      schema' = .object fields' ∧ view.SameFields fields fields' := by
  unfold Same at hSame
  rw [Schema.seen_object] at hSame
  cases schema' with
  | object fields' =>
      rw [Schema.seen_object] at hSame
      exact ⟨fields', rfl, Schema.object.inj hSame⟩
  | _ => simp [seen] at hSame

/- What is seen like a list is a list. -/
theorem Same.exists_items
    {items : List Schema}
    {schema' : Schema}
    (hSame : view.Same (.array items) schema') :
    ∃ items',
      schema' = .array items' ∧ view.SameItems items items' := by
  unfold Same at hSame
  rw [seen] at hSame
  cases schema' with
  | array items' =>
      rw [seen] at hSame
      exact ⟨items', rfl, Schema.array.inj hSame⟩
  | _ => simp [seen] at hSame

theorem Same.isFalsy
    {schema schema' : Schema}
    (hSame : view.Same schema schema') :
    schema.isFalsy = schema'.isFalsy := by
  simpa using congrArg Schema.isFalsy hSame

theorem Same.fields?
    {schema schema' : Schema}
    (hSame : view.Same schema schema') :
    schema.fields?.map (seenFields view) =
      schema'.fields?.map (seenFields view) := by
  simpa using congrArg Schema.fields? hSame

theorem Same.isMap
    {schema schema' : Schema}
    (hSame : view.Same schema schema') :
    schema.isMap = schema'.isMap := by
  unfold Schema.isMap
  simpa using congrArg Option.isSome hSame.fields?

/- Maps that are changed alike are seen alike. -/
theorem Same.mapFields
    {schema schema' : Schema}
    {change change' : Fields → Fields}
    (hSame : view.Same schema schema')
    (hChange :
      ∀ fields fields', view.SameFields fields fields' →
        view.SameFields (change fields) (change' fields')) :
    view.Same (schema.mapFields change) (schema'.mapFields change') := by
  cases schema with
  | object fields =>
      rcases hSame.exists_fields with ⟨fields', rfl, hFields⟩
      exact same_object (hChange fields fields' hFields)
  | _ =>
      cases schema' with
      | object fields' => simp [Same, seen] at hSame
      | _ => exact hSame

------------------------------------------------------------
-- Entries
------------------------------------------------------------

namespace SameFields

variable {fields fields' entries entries' : Fields}

/- The values of a key are seen alike, if it is seen. -/
theorem entry
    (hFields : view.SameFields fields fields')
    {key : String}
    (hShown : view.shows key = true) :
    (fields.get? key).map (fun value => view.entry key (value.seen view)) =
      (fields'.get? key).map
        fun value => view.entry key (value.seen view) := by
  rw [← Schema.get?_seenFields fields hShown, hFields,
    Schema.get?_seenFields fields' hShown]

theorem get?
    (hFields : view.SameFields fields fields')
    {key : String}
    (hShown : view.shows key = true)
    (hKey : key ≠ "required") :
    (fields.get? key).map (seen view) =
      (fields'.get? key).map (seen view) := by
  simpa [View.entry, hKey] using hFields.entry hShown

theorem contains
    (hFields : view.SameFields fields fields')
    {key : String}
    (hShown : view.shows key = true) :
    fields.contains key = fields'.contains key := by
  simpa [OrderedMap.contains] using
    congrArg Option.isSome (hFields.entry hShown)

theorem insertEntry
    (hFields : view.SameFields fields fields')
    {key : String}
    {value value' : Schema}
    (hValue :
      view.entry key (value.seen view) =
        view.entry key (value'.seen view)) :
    view.SameFields (fields.insert key value)
      (fields'.insert key value') := by
  unfold SameFields
  rw [Schema.seenFields_insert, Schema.seenFields_insert, hFields, hValue]

theorem insert
    (hFields : view.SameFields fields fields')
    (key : String)
    {value value' : Schema}
    (hValue : view.Same value value') :
    view.SameFields (fields.insert key value)
      (fields'.insert key value') :=
  hFields.insertEntry (congrArg (view.entry key) hValue)

theorem insertFirst
    (hFields : view.SameFields fields fields')
    (key : String)
    {value value' : Schema}
    (hValue : view.Same value value') :
    view.SameFields (fields.insertFirst key value)
      (fields'.insertFirst key value') := by
  rw [sameFields_iff] at hFields ⊢
  unfold OrderedMap.insertFirst
  rw [OrderedMap.toList_of, OrderedMap.toList_of]
  exact (hFields.filter (· != key)).cons key hValue

theorem filter
    (hFields : view.SameFields fields fields')
    (keeps : String → Bool) :
    view.SameFields (fields.filter fun entry => keeps entry.1)
      (fields'.filter fun entry => keeps entry.1) := by
  unfold SameFields
  rw [Schema.seenFields_filter, Schema.seenFields_filter, hFields]

theorem erase
    (hFields : view.SameFields fields fields')
    (key : String) :
    view.SameFields (fields.erase key) (fields'.erase key) :=
  hFields.filter (· != key)

end SameFields

end View

/- Entries are inserted into what is seen as far as they are seen. -/
theorem Schema.seenFields_insertAll
    (view : View)
    (fields : Fields)
    (entries : Pairs Schema) :
    seenFields view (fields.insertAll entries) =
      OrderedMap.insertAll (seenFields view fields)
        (seenPairs view entries) := by
  unfold OrderedMap.insertAll
  induction entries generalizing fields with
  | nil => rfl
  | cons entry rest ih =>
      rcases entry with ⟨key, value⟩
      rw [List.foldl_cons, ih, seenFields_insert, seenPairs]
      by_cases hShown : view.shows key = true
      · simp [hShown]
      · simp [hShown]

/- A key that is not seen has no entry in what is seen. -/
theorem Schema.erase_seenFields
    {view : View}
    {key : String}
    (hHidden : view.shows key = false)
    (fields : Fields) :
    OrderedMap.erase (seenFields view fields) key =
      seenFields view fields := by
  apply OrderedMap.erase_of_not_mem
  rw [← OrderedMap.names_toList, toList_seenFields, names_seenPairs]
  intro hKey
  rw [(List.mem_filter.mp hKey).2] at hHidden
  cases hHidden

/- A removal is seen as one, also among required names. -/
theorem View.isRemoval_entry
    (view : View)
    (key : String)
    (value : Schema) :
    (view.entry key (value.seen view)).isRemoval = value.isRemoval := by
  unfold View.entry View.names
  split
  · cases value with
    | array items =>
        simp only [seen]
        split <;> rfl
    | _ => rfl
  · exact Schema.isRemoval_seen value

/- Keys are set in what is seen as far as they are seen. -/
theorem Schema.seenFields_applyAll
    (view : View)
    (fields : Fields)
    (entries : Pairs Schema) :
    seenFields view
        (entries.foldl
          (fun fields entry => Fields.applyEntry fields entry.1 entry.2)
          fields) =
      (seenPairs view entries).foldl
        (fun fields entry => Fields.applyEntry fields entry.1 entry.2)
        (seenFields view fields) := by
  induction entries generalizing fields with
  | nil => rfl
  | cons entry rest ih =>
      rcases entry with ⟨key, value⟩
      have hErase :
          seenFields view (fields.erase key) =
            OrderedMap.erase (seenFields view fields) key :=
        seenFields_filter fields (· != key)
      rw [List.foldl_cons, ih, seenPairs]
      by_cases hShown : view.shows key = true
      · rw [if_pos hShown, List.foldl_cons]
        unfold Fields.applyEntry
        rw [View.isRemoval_entry]
        by_cases hRemoval : value.isRemoval = true
        · simp only [hRemoval, if_true, hErase]
        · simp only [hRemoval, Bool.false_eq_true, if_false,
            seenFields_insert, hShown, if_true]
      · have hHidden : view.shows key = false :=
          Bool.eq_false_iff.mpr hShown
        rw [if_neg hShown]
        congr 1
        unfold Fields.applyEntry
        split
        · rw [hErase, erase_seenFields hHidden]
        · rw [seenFields_insert, if_neg hShown]

namespace View

variable {view : View}

namespace SameFields

variable {fields fields' : Fields}
variable {entries entries' : Pairs Schema}

theorem insertAll
    (hFields : view.SameFields fields fields')
    (hEntries : view.SamePairs entries entries') :
    view.SameFields (fields.insertAll entries)
      (fields'.insertAll entries') := by
  unfold SameFields
  rw [Schema.seenFields_insertAll, Schema.seenFields_insertAll, hFields,
    hEntries]

theorem applyAll
    (hFields : view.SameFields fields fields')
    (hEntries : view.SamePairs entries entries') :
    view.SameFields
      (entries.foldl
        (fun fields entry => Fields.applyEntry fields entry.1 entry.2)
        fields)
      (entries'.foldl
        (fun fields entry => Fields.applyEntry fields entry.1 entry.2)
        fields') := by
  unfold SameFields
  rw [Schema.seenFields_applyAll, Schema.seenFields_applyAll, hFields,
    hEntries]

end SameFields

theorem Same.setKeys
    {schema schema' : Schema}
    {entries entries' : Pairs Schema}
    (hSame : view.Same schema schema')
    (hEntries : view.SamePairs entries entries') :
    view.Same (schema.setKeys entries) (schema'.setKeys entries') :=
  hSame.mapFields fun _ _ hFields => hFields.applyAll hEntries

theorem Same.setKey
    {schema schema' value value' : Schema}
    (hSame : view.Same schema schema')
    (key : String)
    (hValue : view.Same value value') :
    view.Same (schema.setKey key value) (schema'.setKey key value') :=
  hSame.setKeys (SamePairs.cons rfl key hValue)

------------------------------------------------------------
-- Types And Kinds
------------------------------------------------------------

/- A key other than `description` is always seen. -/
theorem shows_of_ne
    (key : String)
    (hKey : key ≠ "description") :
    view.shows key = true := by
  simp [shows, hKey]

theorem Same.get?
    {schema schema' : Schema}
    (hSame : view.Same schema schema')
    {key : String}
    (hShown : view.shows key = true)
    (hKey : key ≠ "required") :
    (schema.get? key).map (seen view) =
      (schema'.get? key).map (seen view) := by
  unfold Schema.get?
  cases schema with
  | object fields =>
      rcases hSame.exists_fields with ⟨fields', rfl, hFields⟩
      exact hFields.get? hShown hKey
  | _ =>
      cases schema' with
      | object fields' => simp [Same, seen] at hSame
      | _ => rfl

theorem Same.typeName?
    {schema schema' : Schema}
    (hSame : view.Same schema schema') :
    schema.typeName? = schema'.typeName? := by
  have hType := hSame.get? (shows_of_ne "type" (by decide)) (by decide)
  have hBind :=
    congrArg (fun type => type.bind Schema.string?) hType
  simpa [Schema.typeName?, Option.bind_map, Function.comp_def] using hBind

theorem Same.kind
    {schema schema' : Schema}
    (hSame : view.Same schema schema') :
    schema.kind = schema'.kind := by
  have hType := hSame.typeName?
  cases schema with
  | object fields =>
      rcases hSame.exists_fields with ⟨fields', rfl, hFields⟩
      have hContains :
          ∀ key, key ≠ "description" →
            OrderedMap.contains fields key =
              OrderedMap.contains fields' key :=
        fun key hKey => hFields.contains (shows_of_ne key hKey)
      have hKeys : Schema.Kind.ofKeys fields = Schema.Kind.ofKeys fields' := by
        unfold Schema.Kind.ofKeys
        simp [hContains]
      unfold Schema.kind
      simp only [hType, hKeys]
  | _ =>
      cases schema' with
      | object fields' => simp [Same, seen] at hSame
      | _ => rfl

------------------------------------------------------------
-- Titles And Descriptions
------------------------------------------------------------

theorem Same.setTitle
    {schema schema' : Schema}
    (hSame : view.Same schema schema')
    (name : String) :
    view.Same (schema.setTitle name) (schema'.setTitle name) := by
  apply hSame.mapFields
  intro fields fields' hFields
  rw [hFields.contains (shows_of_ne "title" (by decide))]
  split
  · exact hFields.insert "title" rfl
  · exact hFields.insertFirst "title" rfl

theorem Same.stripNames
    {schema schema' : Schema}
    (hSame : view.Same schema schema') :
    view.Same schema.stripNames schema'.stripNames :=
  hSame.mapFields fun _ _ hFields =>
    (hFields.erase "title").erase "description"

/- An entry that is not seen does not matter. -/
theorem sameFields_insertFirst_hidden
    {key : String}
    (hHidden : view.shows key = false)
    (fields : Fields)
    (value : Schema) :
    view.SameFields (fields.insertFirst key value) fields := by
  have hErased : view.SameFields (fields.erase key) fields :=
    (Schema.seenFields_filter fields (· != key)).trans
      (Schema.erase_seenFields hHidden fields)
  rw [sameFields_iff] at hErased ⊢
  unfold OrderedMap.insertFirst SamePairs
  rw [OrderedMap.toList_of, seenPairs, hHidden]
  rw [OrderedMap.toList_erase] at hErased
  exact hErased

/- If descriptions are not seen, nothing is seen of a new one. -/
theorem same_describe
    (hHidden : view.descriptions = false)
    (comments : List Comment)
    (schema : Schema) :
    view.Same (schema.describe comments) schema := by
  have hShows : view.shows "description" = false := by
    simp [shows, hHidden]
  unfold Schema.describe
  split
  · rfl
  · cases schema with
    | object fields =>
        apply same_object
        dsimp only
        split
        · rfl
        · exact sameFields_insertFirst_hidden hShows fields _
    | _ => rfl

theorem Same.describe
    {schema schema' : Schema}
    (hSame : view.Same schema schema')
    (comments : List Comment) :
    view.Same (schema.describe comments) (schema'.describe comments) := by
  cases hView : view.descriptions with
  | false =>
      exact (same_describe hView comments schema).trans
        (hSame.trans (same_describe hView comments schema').symm)
  | true =>
      have hShows : view.shows "description" = true := by
        simp [shows, hView]
      unfold Schema.describe
      split
      · exact hSame
      · apply hSame.mapFields
        intro fields fields' hFields
        rw [hFields.contains hShows]
        split
        · exact hFields
        · exact hFields.insertFirst "description" rfl

------------------------------------------------------------
-- Views That Hide Nothing
------------------------------------------------------------

/- All keys and names are seen. -/
structure IsComplete
    (view : View) : Prop where
  descriptions : view.descriptions = true
  demands : view.demands = true

namespace IsComplete

theorem isFair
    (hComplete : view.IsComplete) :
    view.IsFair :=
  fun _ => hComplete.descriptions

theorem shows
    (hComplete : view.IsComplete)
    (key : String) :
    view.shows key = true := by
  simp [View.shows, hComplete.descriptions]

theorem lists
    (hComplete : view.IsComplete) :
    view.lists = fun _ => true := by
  funext name
  simp [View.lists, hComplete.demands]

theorem entry
    (hComplete : view.IsComplete)
    (key : String)
    (value : Schema) :
    view.entry key value = value := by
  unfold View.entry
  split
  · cases value with
    | array items =>
        have hKept :
            (items.filter fun item => item.string?.all view.lists) =
              items := by
          rw [List.filter_eq_self, hComplete.lists]
          intro item _
          cases item.string? <;> rfl
        simp only [View.names, hKept, ite_self]
    | _ => rfl
  · rfl

theorem seenPairs_eq
    (hComplete : view.IsComplete)
    (pairs : Pairs Schema) :
    seenPairs view pairs =
      pairs.map fun entry => (entry.1, entry.2.seen view) := by
  induction pairs with
  | nil => rfl
  | cons entry rest ih =>
      rw [seenPairs, if_pos (hComplete.shows entry.1), hComplete.entry,
        ih, List.map_cons]

end IsComplete

/- Options are seen alike if their values are. -/
theorem rel_of_map_seen
    {value value' : Option Schema}
    (hSeen : value.map (seen view) = value'.map (seen view)) :
    Option.Rel view.Same value value' := by
  cases value with
  | none =>
      rw [Option.map_eq_none_iff.mp hSeen.symm]
      exact .none
  | some schema =>
      rcases Option.map_eq_some_iff.mp hSeen.symm with
        ⟨schema', rfl, hSame⟩
      exact .some hSame.symm

theorem sameItems_iff
    {items items' : List Schema} :
    view.SameItems items items' ↔ List.Forall₂ view.Same items items' := by
  unfold SameItems
  rw [Schema.seenItems_eq, Schema.seenItems_eq, ← List.forall₂_eq_eq_eq,
    List.forall₂_map_left_iff, List.forall₂_map_right_iff]
  rfl

/- The value of any key is seen alike. -/
theorem SameFields.get?_of_complete
    (hComplete : view.IsComplete)
    (hFields : view.SameFields fields fields')
    (key : String) :
    (fields.get? key).map (seen view) =
      (fields'.get? key).map (seen view) := by
  simpa only [hComplete.entry] using
    hFields.entry (hComplete.shows key)

theorem Same.get?_of_complete
    (hComplete : view.IsComplete)
    {schema schema' : Schema}
    (hSame : view.Same schema schema')
    (key : String) :
    (schema.get? key).map (seen view) =
      (schema'.get? key).map (seen view) := by
  unfold Schema.get?
  cases schema with
  | object fields =>
      rcases hSame.exists_fields with ⟨fields', rfl, hFields⟩
      exact hFields.get?_of_complete hComplete key
  | _ =>
      cases schema' with
      | object fields' => simp [Same, seen] at hSame
      | _ => rfl

/- The view that shows a schema as it is. -/
theorem isComplete_whole :
    IsComplete {} :=
  ⟨rfl, rfl⟩

end View

namespace Schema

mutual

@[simp] theorem seen_whole :
    (schema : Schema) → schema.seen {} = schema
  | null => rfl
  | bool _ => rfl
  | number _ => rfl
  | string _ => rfl
  | array items => by rw [seen, seenItems_whole items]
  | object fields => by
      rw [seen, seenRow_whole fields.row]
      exact congrArg object fields.ofList_toList
  | removal _ => rfl

@[simp] theorem seenItems_whole :
    (items : List Schema) → seenItems {} items = items
  | [] => rfl
  | item :: rest => by
      rw [seenItems, seen_whole item, seenItems_whole rest]

theorem seenRow_whole
    {names : List String} :
    (row : OrderedMap.Row Schema names) → seenRow {} row = row.toPairs
  | .nil => rfl
  | .cons key value rest _ => by
      rw [seenRow, if_pos (View.isComplete_whole.shows key),
        View.isComplete_whole.entry, seen_whole value,
        seenRow_whole rest, OrderedMap.Row.toPairs]

end

@[simp] theorem seenPairs_whole
    (pairs : Pairs Schema) :
    seenPairs {} pairs = pairs := by
  rw [View.isComplete_whole.seenPairs_eq]
  simp

end Schema

/- Schemas that are seen as they are, are seen alike if equal. -/
theorem View.same_whole_iff
    {schema schema' : Schema} :
    View.Same {} schema schema' ↔ schema = schema' := by
  unfold View.Same
  rw [Schema.seen_whole, Schema.seen_whole]

end SchemaLang
