import SchemaLang.Proofs.Error
import SchemaLang.Proofs.Schema.Properties

/-
  Standards for schemas: that no removal is left in them, that their
  names come first. The operations on schemas keep to a standard.

  Main declarations:
    * `Standard`
    * `Standard.Sound` and `Standard.Met`
    * `Standard.SoundFields.merge` and `Standard.Leads.merge`
    * `Standard.Met.describe`, `Standard.Met.setTitle` and
      `Standard.Met.stripNames`
-/

namespace SchemaLang

/- Whether a key names a schema, and does not say what it admits. -/
def Schema.isNaming
    (key : String) : Bool :=
  key == "title" || key == "description"

/-
  What is asked of schemas:
    * `removals`: whether removals may be left in them;
    * `titles`: whether a title has only names in front of it;
    * `descriptions`: whether a description has.
-/
structure Standard where
  removals : Bool := true
  titles : Bool := false
  descriptions : Bool := false

namespace Standard

------------------------------------------------------------
-- What Is Within A Schema
------------------------------------------------------------

mutual

/- No removals within a schema are against a standard. -/
def Sound
    (standard : Standard) : Schema → Prop
  | .removal _ => standard.removals = true
  | .array items => standard.SoundItems items
  | .object ⟨_, row⟩ => standard.SoundRow row
  | _ => True

/- So it is for the elements of a list. -/
def SoundItems
    (standard : Standard) : List Schema → Prop
  | [] => True
  | item :: rest => standard.Sound item ∧ standard.SoundItems rest

/- So it is for the values of a row. -/
def SoundRow
    (standard : Standard)
    {names : List String} : OrderedMap.Row Schema names → Prop
  | .nil => True
  | .cons _ value rest _ =>
    standard.Sound value ∧ standard.SoundRow rest

end

/- The values of a map are not against a standard. -/
def SoundFields
    (standard : Standard)
    (fields : Fields) : Prop :=
  ∀ entry ∈ fields.toList, standard.Sound entry.2

variable {standard : Standard}
variable {fields : Fields}
variable {schema value : Schema}

theorem soundItems_iff
    {items : List Schema} :
    standard.SoundItems items ↔ ∀ item ∈ items, standard.Sound item := by
  induction items with
  | nil => simp [SoundItems]
  | cons item rest ih => simp [SoundItems, ih]

theorem soundRow_iff
    {names : List String}
    {row : OrderedMap.Row Schema names} :
    standard.SoundRow row ↔
      ∀ entry ∈ row.toPairs, standard.Sound entry.2 := by
  induction row with
  | nil => simp [SoundRow, OrderedMap.Row.toPairs]
  | cons name value rest hNew ih =>
      simp [SoundRow, OrderedMap.Row.toPairs, ih]

theorem sound_array
    {items : List Schema} :
    standard.Sound (.array items) ↔ ∀ item ∈ items, standard.Sound item := by
  rw [Sound, soundItems_iff]

theorem sound_object :
    standard.Sound (.object fields) ↔ standard.SoundFields fields := by
  rw [Sound, soundRow_iff]
  rfl

theorem sound_strings
    (names : List String) :
    standard.Sound (.strings names) := by
  unfold Schema.strings
  rw [sound_array]
  intro item hItem
  rcases List.mem_map.mp hItem with ⟨name, -, rfl⟩
  trivial

theorem sound_ofBinary64
    (value : Binary64) :
    standard.Sound (.ofBinary64 value) := by
  unfold Schema.ofBinary64
  split <;> trivial

@[simp] theorem soundFields_of
    (pairs : Pairs Schema)
    (hDistinct : pairs.names.Nodup) :
    standard.SoundFields (.of pairs hDistinct) ↔
      ∀ entry ∈ pairs, standard.Sound entry.2 := by
  rw [SoundFields, OrderedMap.toList_of]

namespace SoundFields

theorem empty :
    standard.SoundFields .empty := by
  intro entry hEntry
  cases hEntry

theorem get?
    {key : String}
    (hFields : standard.SoundFields fields)
    (hGet : fields.get? key = some value) :
    standard.Sound value :=
  hFields _ (OrderedMap.mem_of_get? hGet)

theorem insert
    (hFields : standard.SoundFields fields)
    (key : String)
    (hValue : standard.Sound value) :
    standard.SoundFields (fields.insert key value) := by
  intro entry hEntry
  rcases OrderedMap.mem_insert hEntry with rfl | hOld
  · exact hValue
  · exact hFields entry hOld

theorem filter
    (hFields : standard.SoundFields fields)
    (keeps : String × Schema → Bool) :
    standard.SoundFields (fields.filter keeps) := by
  intro entry hEntry
  rw [OrderedMap.toList_filter] at hEntry
  exact hFields entry (List.mem_filter.mp hEntry).1

theorem insertFirst
    (hFields : standard.SoundFields fields)
    (key : String)
    (hValue : standard.Sound value) :
    standard.SoundFields (fields.insertFirst key value) := by
  unfold OrderedMap.insertFirst
  rw [soundFields_of, List.forall_mem_cons]
  exact ⟨hValue, fun entry hEntry =>
    hFields entry (List.mem_filter.mp hEntry).1⟩

theorem insertAll
    {entries : Pairs Schema}
    (hFields : standard.SoundFields fields)
    (hEntries : ∀ entry ∈ entries, standard.Sound entry.2) :
    standard.SoundFields (fields.insertAll entries) := by
  unfold OrderedMap.insertAll
  induction entries generalizing fields with
  | nil => exact hFields
  | cons entry rest ih =>
      rw [List.forall_mem_cons] at hEntries
      exact ih (hFields.insert entry.1 hEntries.1) hEntries.2

------------------------------------------------------------
-- Properties
------------------------------------------------------------

theorem properties?
    {properties : Fields}
    (hFields : standard.SoundFields fields)
    (hProperties : Fields.properties? fields = some properties) :
    standard.SoundFields properties := by
  rcases Option.bind_eq_some_iff.mp hProperties with ⟨found, hGet, hMap⟩
  have hFound := hFields.get? hGet
  cases found with
  | object entries =>
      cases hMap
      exact sound_object.mp hFound
  | _ => cases hMap

theorem getD_properties?
    (hFields : standard.SoundFields fields) :
    standard.SoundFields ((Fields.properties? fields).getD .empty) := by
  cases hProperties : Fields.properties? fields with
  | none => exact empty
  | some properties => exact hFields.properties? hProperties

end SoundFields

------------------------------------------------------------
-- Keys In Front
------------------------------------------------------------

/- Whether a key is one that has only names in front of it. -/
def leading
    (standard : Standard)
    (key : String) : Bool :=
  (standard.titles && key == "title") ||
    (standard.descriptions && key == "description")

/- Only names stand in front of the keys that are to lead. -/
def Leads
    (standard : Standard)
    (keys : List String) : Prop :=
  keys.Pairwise fun before key =>
    standard.leading key = true → Schema.isNaming before = true

theorem leading_of_not_naming
    {key : String}
    (hKey : Schema.isNaming key = false) :
    standard.leading key = false := by
  simp only [Schema.isNaming, Bool.or_eq_false_iff] at hKey
  simp [leading, hKey.1, hKey.2]

theorem leading_of_lenient
    (hTitles : standard.titles = false)
    (hDescriptions : standard.descriptions = false)
    (key : String) :
    standard.leading key = false := by
  simp [leading, hTitles, hDescriptions]

theorem leads_of_plain
    {keys : List String}
    (hKeys : ∀ key ∈ keys, standard.leading key = false) :
    standard.Leads keys := by
  induction keys with
  | nil => exact .nil
  | cons key rest ih =>
      rw [List.forall_mem_cons] at hKeys
      refine .cons ?_ (ih hKeys.2)
      intro other hOther hLeading
      rw [hKeys.2 other hOther] at hLeading
      cases hLeading

namespace Leads

theorem insert
    (hLeads : standard.Leads fields.keys)
    {key : String}
    (hKey : standard.leading key = false)
    (value : Schema) :
    standard.Leads (fields.insert key value).keys := by
  rw [OrderedMap.keys_insert]
  split
  · exact hLeads
  · refine List.pairwise_append.mpr
      ⟨hLeads, List.pairwise_singleton _ _, ?_⟩
    intro before _ last hLast hLeading
    rw [List.mem_singleton.mp hLast, hKey] at hLeading
    cases hLeading

theorem insertAll
    (hLeads : standard.Leads fields.keys)
    {entries : Pairs Schema}
    (hEntries : ∀ entry ∈ entries, standard.leading entry.1 = false) :
    standard.Leads (fields.insertAll entries).keys := by
  unfold OrderedMap.insertAll
  induction entries generalizing fields with
  | nil => exact hLeads
  | cons entry rest ih =>
      rw [List.forall_mem_cons] at hEntries
      exact ih (hLeads.insert hEntries.1 entry.2) hEntries.2

theorem filter
    (hLeads : standard.Leads fields.keys)
    (keeps : String × Schema → Bool) :
    standard.Leads (fields.filter keeps).keys :=
  List.Pairwise.sublist (fields.keys_filter_sublist keeps) hLeads

/- A name may go in front of all other keys. -/
theorem insertFirst
    (hLeads : standard.Leads fields.keys)
    {key : String}
    (hNaming : Schema.isNaming key = true)
    (value : Schema) :
    standard.Leads (fields.insertFirst key value).keys := by
  have hErased : standard.Leads (fields.erase key).keys :=
    hLeads.filter _
  rw [← OrderedMap.names_toList, OrderedMap.toList_erase] at hErased
  exact .cons (fun _ _ _ => hNaming) hErased

end Leads

------------------------------------------------------------
-- Schemas
------------------------------------------------------------

/- The entries of a map are up to a standard. -/
structure MetFields
    (standard : Standard)
    (fields : Fields) : Prop where
  sound : standard.SoundFields fields
  leads : standard.Leads fields.keys

/- A schema is up to a standard. -/
structure Met
    (standard : Standard)
    (schema : Schema) : Prop where
  sound : standard.Sound schema
  leads : ∀ fields, schema = .object fields →
    standard.Leads fields.keys

theorem met_object :
    standard.Met (.object fields) ↔ standard.MetFields fields := by
  constructor
  · intro hMet
    exact ⟨sound_object.mp hMet.sound, hMet.leads fields rfl⟩
  · intro hFields
    refine ⟨sound_object.mpr hFields.sound, ?_⟩
    intro _ hSame
    cases hSame
    exact hFields.leads

/- A map without names is up to any standard. -/
theorem met_of_keys
    (keys : List String)
    (hKeys : fields.keys = keys)
    (hPlain : ∀ key ∈ keys, Schema.isNaming key = false)
    (hValues : standard.SoundFields fields) :
    standard.Met (.object fields) := by
  subst hKeys
  refine met_object.mpr ⟨hValues, leads_of_plain ?_⟩
  intro key hKey
  exact leading_of_not_naming (hPlain key hKey)

/- If nothing is to lead, it is enough that a schema is sound. -/
theorem Sound.met
    (hSound : standard.Sound schema)
    (hTitles : standard.titles = false)
    (hDescriptions : standard.descriptions = false) :
    standard.Met schema :=
  ⟨hSound, fun _ _ => leads_of_plain fun key _ =>
    leading_of_lenient hTitles hDescriptions key⟩

theorem Met.mapFields
    {change : Fields → Fields}
    (hMet : standard.Met schema)
    (hChange :
      ∀ fields, standard.MetFields fields →
        standard.MetFields (change fields)) :
    standard.Met (schema.mapFields change) := by
  cases schema with
  | object fields => exact met_object.mpr (hChange _ (met_object.mp hMet))
  | _ => exact hMet

namespace MetFields

theorem insert
    (hFields : standard.MetFields fields)
    {key : String}
    (hKey : standard.leading key = false)
    (hValue : standard.Sound value) :
    standard.MetFields (fields.insert key value) :=
  ⟨hFields.sound.insert key hValue, hFields.leads.insert hKey value⟩

theorem filter
    (hFields : standard.MetFields fields)
    (keeps : String × Schema → Bool) :
    standard.MetFields (fields.filter keeps) :=
  ⟨hFields.sound.filter keeps, hFields.leads.filter keeps⟩

/- A name goes in front of all other keys. -/
theorem insertFirst
    (hFields : standard.MetFields fields)
    {key : String}
    (hNaming : Schema.isNaming key = true)
    (hValue : standard.Sound value) :
    standard.MetFields (fields.insertFirst key value) :=
  ⟨hFields.sound.insertFirst key hValue,
    hFields.leads.insertFirst hNaming value⟩

theorem applyEntry
    (hFields : standard.MetFields fields)
    {key : String}
    (hKey : standard.leading key = false)
    (hValue : standard.Sound value) :
    standard.MetFields (Fields.applyEntry fields key value) := by
  unfold Fields.applyEntry
  split
  · exact hFields.filter _
  · exact hFields.insert hKey hValue

theorem setRequired
    (hFields : standard.MetFields fields)
    (names : List String) :
    standard.MetFields (Fields.setRequired fields names) :=
  hFields.insert (leading_of_not_naming rfl) (sound_strings names)

theorem toggleRequired
    (hFields : standard.MetFields fields)
    (name : String)
    (required : Bool) :
    standard.MetFields (Fields.toggleRequired fields name required) := by
  unfold Fields.toggleRequired
  dsimp only
  split
  · exact hFields.setRequired _
  · split
    · exact hFields.setRequired _
    · exact hFields

theorem setProperties
    {properties : Fields}
    (hFields : standard.MetFields fields)
    (hProperties : standard.SoundFields properties) :
    standard.MetFields (fields.insert "properties" (.object properties)) :=
  hFields.insert (leading_of_not_naming rfl) (sound_object.mpr hProperties)

theorem insertProperty
    (hFields : standard.MetFields fields)
    (name : String)
    (hValue : standard.Sound value) :
    standard.MetFields (Fields.insertProperty fields name value) :=
  hFields.setProperties (hFields.sound.getD_properties?.insert name hValue)

theorem removeProperty
    (hFields : standard.MetFields fields)
    (name : String) :
    standard.MetFields (Fields.removeProperty fields name) := by
  unfold Fields.removeProperty
  split
  · rename_i properties hProperties
    exact hFields.setProperties
      ((hFields.sound.properties? hProperties).filter _)
  · exact hFields

end MetFields

------------------------------------------------------------
-- Names
------------------------------------------------------------

namespace Met

theorem setTitle
    (hMet : standard.Met schema)
    (name : String) :
    standard.Met (schema.setTitle name) := by
  refine hMet.mapFields fun fields hFields => ?_
  split
  · rename_i hContains
    refine ⟨hFields.sound.insert _ trivial, ?_⟩
    rw [OrderedMap.keys_insert_of_mem (OrderedMap.contains_iff.mp hContains)]
    exact hFields.leads
  · exact hFields.insertFirst rfl trivial

theorem describe
    (hMet : standard.Met schema)
    (comments : List Comment) :
    standard.Met (schema.describe comments) := by
  unfold Schema.describe
  split
  · exact hMet
  · refine hMet.mapFields fun fields hFields => ?_
    split
    · exact hFields
    · exact hFields.insertFirst rfl trivial

theorem stripNames
    (hMet : standard.Met schema) :
    standard.Met schema.stripNames :=
  hMet.mapFields fun _ hFields => (hFields.filter _).filter _

theorem setKeys
    {entries : Pairs Schema}
    (hMet : standard.Met schema)
    (hKeys : ∀ entry ∈ entries, standard.leading entry.1 = false)
    (hValues : ∀ entry ∈ entries, standard.Sound entry.2) :
    standard.Met (schema.setKeys entries) := by
  refine hMet.mapFields fun fields hFields => ?_
  induction entries generalizing fields with
  | nil => exact hFields
  | cons entry rest ih =>
      rw [List.forall_mem_cons] at hKeys hValues
      exact ih hKeys.2 hValues.2 _
        (hFields.applyEntry hKeys.1 hValues.1)

theorem setKey
    {key : String}
    (hMet : standard.Met schema)
    (hKey : standard.leading key = false)
    (hValue : standard.Sound value) :
    standard.Met (schema.setKey key value) := by
  apply hMet.setKeys
  · simpa using hKey
  · simpa using hValue

end Met

/- A description is put into what is sound without harm. -/
theorem Sound.describe
    (hSound : standard.Sound schema)
    (comments : List Comment) :
    standard.Sound (schema.describe comments) := by
  unfold Schema.describe
  split
  · exact hSound
  · cases schema with
    | object fields =>
        rw [Schema.mapFields]
        split
        · exact hSound
        · exact sound_object.mpr
            ((sound_object.mp hSound).insertFirst _ trivial)
    | _ => exact hSound

------------------------------------------------------------
-- Members Of Object Literals
------------------------------------------------------------

namespace MetFields

theorem skeleton :
    standard.MetFields Fields.skeleton := by
  apply met_object.mp
  apply met_of_keys
    ["type", "additionalProperties", "required", "properties"] rfl
    (by decide)
  simp [Fields.skeleton, Sound, SoundItems, SoundRow, OrderedMap.empty]

theorem describeProperty
    (hFields : standard.MetFields fields)
    (name : String)
    (comments : List Comment) :
    standard.MetFields (Fields.describeProperty fields name comments) := by
  unfold Fields.describeProperty
  split
  · exact hFields
  · rename_i properties hProperties
    split
    · exact hFields
    · rename_i value hValue
      have hSound := hFields.sound.properties? hProperties
      exact hFields.setProperties
        (hSound.insert name ((hSound.get? hValue).describe comments))

theorem addPatterns
    {patterns : Fields}
    (hFields : standard.MetFields fields)
    (hPatterns : standard.SoundFields patterns) :
    standard.MetFields (Fields.addPatterns fields patterns) := by
  unfold Fields.addPatterns
  split
  · rename_i existing hExisting
    rcases Option.bind_eq_some_iff.mp hExisting with ⟨found, hGet, hMap⟩
    have hFound := hFields.sound.get? hGet
    cases found with
    | object entries =>
        cases hMap
        refine hFields.insert (leading_of_not_naming rfl) ?_
        exact sound_object.mpr
          ((sound_object.mp hFound).insertAll hPatterns)
    | _ => cases hMap
  · exact hFields.insert (leading_of_not_naming rfl)
      (sound_object.mpr hPatterns)

/- Comments describe a member, and perhaps a property in front. -/
theorem describe
    (hFields : standard.MetFields fields)
    (hValue : standard.Sound value)
    (comments : Comments)
    (previous : Option Member) :
    standard.MetFields
        (Member.describe fields value comments previous).1 ∧
      standard.Sound
        (Member.describe fields value comments previous).2 := by
  rcases Member.describe_cases fields value comments previous with
    ⟨others, own, hSame, rfl | ⟨name, first, rfl⟩⟩
  · rw [hSame]
    exact ⟨hFields, hValue.describe own⟩
  · rw [hSame]
    exact ⟨hFields.describeProperty name first, hValue.describe own⟩

------------------------------------------------------------
-- Chosen Properties
------------------------------------------------------------

theorem choosing
    (hFields : standard.MetFields fields)
    (change : List String → List String)
    {choose : Fields → Fields}
    (hChoose :
      ∀ properties : Fields, standard.SoundFields properties →
        standard.SoundFields (choose properties)) :
    standard.MetFields (fields.choosing change choose) := by
  have hChanged : standard.MetFields (fields.changeRequired change) := by
    unfold Fields.changeRequired
    split
    · exact hFields.setRequired _
    · exact hFields
  unfold Fields.choosing
  dsimp only
  split
  · exact hChanged
  · rename_i properties hProperties
    exact hChanged.setProperties
      (hChoose properties (hChanged.sound.properties? hProperties))

theorem pick
    (hFields : standard.MetFields fields)
    (selected : Call.Selection) :
    standard.MetFields (Fields.pick fields selected) := by
  rw [Fields.pick_eq_choosing]
  refine hFields.choosing _ fun properties hProperties => ?_
  refine SoundFields.empty.insertAll fun entry hEntry => ?_
  rcases List.mem_filterMap.mp hEntry with ⟨old, hOld, hRenamed⟩
  rcases Option.map_eq_some_iff.mp hRenamed with ⟨name, -, rfl⟩
  exact hProperties old hOld

theorem drop
    (hFields : standard.MetFields fields)
    (names : List String) :
    standard.MetFields (Fields.drop fields names) := by
  rw [Fields.drop_eq_choosing]
  exact hFields.choosing _ fun _ hProperties => hProperties.filter _

end MetFields

end Standard

------------------------------------------------------------
-- Merging
------------------------------------------------------------

namespace Merging

/- The entries of sources that are taken over one by one. -/
def taken
    (isObject : Bool)
    (sources : List Schema) : Pairs Schema :=
  sources.flatMap fun source =>
    (source.fields?.getD .empty).toList.filter fun entry =>
      !skips isObject entry.1

theorem fields_takeAll
    {type : Option String}
    {span : Span}
    {state merged : Merging}
    {sources : List Schema}
    (hMerges : takeAll type span state sources = .ok merged) :
    merged.fields =
      state.fields.insertAll (taken (type == some "object") sources) := by
  fun_induction takeAll type span state sources with
  | case1 state =>
      cases hMerges
      rfl
  | case2 state rest fields hType ih =>
      rw [ih hMerges]
      unfold taken OrderedMap.insertAll
      rw [List.flatMap_cons, List.foldl_append]
      rfl
  | case3 state source rest hType hOther ih =>
      have hNone : source.fields? = none := by
        cases source with
        | object fields => exact absurd rfl (hOther fields)
        | _ => rfl
      rw [ih hMerges]
      unfold taken
      rw [List.flatMap_cons, hNone]
      rfl
  | case4 state source rest hType => cases hMerges

theorem ne_title_of_mem_taken
    {isObject : Bool}
    {sources : List Schema}
    {entry : String × Schema}
    (hEntry : entry ∈ taken isObject sources) :
    (entry.1 == "title") = false := by
  rcases List.mem_flatMap.mp hEntry with ⟨source, -, hKept⟩
  have hKept := (List.mem_filter.mp hKept).2
  simp only [skips, Bool.not_or, Bool.and_eq_true, Bool.not_eq_true'] at hKept
  exact hKept.1

end Merging

namespace Standard

variable {standard : Standard}
variable {fields : Fields}

/- What has been merged so far is sound. -/
structure SoundMerging
    (standard : Standard)
    (state : Merging) : Prop where
  fields : standard.SoundFields state.fields
  properties : standard.SoundFields state.object.properties

namespace SoundMerging

variable {state : Merging}

theorem entry
    {properties : Reconciled}
    (hProperties : standard.SoundFields properties.properties)
    (required : List String)
    {property : String × Schema}
    (hValue : standard.Sound property.2) :
    standard.SoundFields
      (Reconciled.entry required properties property).properties := by
  unfold Reconciled.entry
  dsimp only
  split
  · exact hProperties.filter _
  · exact hProperties.insert _ hValue

theorem take
    {properties : Reconciled}
    (hProperties : standard.SoundFields properties.properties)
    {source : Fields}
    (hSource : standard.SoundFields source) :
    standard.SoundFields (properties.take source).properties := by
  unfold Reconciled.take
  dsimp only
  have hStated :
      standard.SoundFields (Reconciled.ofFields source).properties :=
    hSource.getD_properties?
  unfold SoundFields at hStated
  generalize (Reconciled.ofFields source).properties.toList = stated
    at hStated ⊢
  induction stated generalizing properties with
  | nil => exact hProperties
  | cons property rest ih =>
      rw [List.forall_mem_cons] at hStated
      exact ih (entry hProperties _ hStated.1) hStated.2

theorem takeAll
    {type : Option String}
    {span : Span}
    {sources : List Schema}
    {merged : Merging}
    (hState : standard.SoundMerging state)
    (hSources : ∀ source ∈ sources, standard.Sound source)
    (hMerges : Merging.takeAll type span state sources = .ok merged) :
    standard.SoundMerging merged := by
  fun_induction Merging.takeAll type span state sources with
  | case1 state =>
      cases hMerges
      exact hState
  | case2 state rest fields hType ih =>
      rw [List.forall_mem_cons] at hSources
      have hFields := sound_object.mp hSources.1
      refine ih ⟨?_, ?_⟩ hSources.2 hMerges
      · exact hState.fields.insertAll fun entry hEntry =>
          hFields entry (List.mem_filter.mp hEntry).1
      · unfold Merging.take
        dsimp only
        split
        · exact take hState.properties hFields
        · exact hState.properties
  | case3 state source rest hType hOther ih =>
      exact ih hState (List.forall_mem_cons.mp hSources).2 hMerges
  | case4 state source rest hType => cases hMerges

end SoundMerging

theorem SoundFields.merge
    {sources : List Schema}
    {span : Span}
    {merged : Fields}
    (hFields : standard.SoundFields fields)
    (hSources : ∀ source ∈ sources, standard.Sound source)
    (hMerges : Fields.merge fields sources span = .ok merged) :
    standard.SoundFields merged := by
  unfold Fields.merge at hMerges
  rcases exists_of_bind_eq_ok hMerges with ⟨state, hState, hResult⟩
  cases hResult
  have hSound :=
    SoundMerging.takeAll ⟨hFields, hFields.getD_properties?⟩ hSources hState
  unfold Merging.result
  split
  · exact (hSound.fields.insert _ (sound_strings _)).insert _
      (sound_object.mpr hSound.properties)
  · exact hSound.fields

/- Titles are not merged, but descriptions are, and come last. -/
theorem Leads.merge
    {sources : List Schema}
    {span : Span}
    {merged : Fields}
    (hDescriptions : standard.descriptions = false)
    (hLeads : standard.Leads fields.keys)
    (hMerges : Fields.merge fields sources span = .ok merged) :
    standard.Leads merged.keys := by
  unfold Fields.merge at hMerges
  rcases exists_of_bind_eq_ok hMerges with ⟨state, hState, hResult⟩
  cases hResult
  have hTaken : standard.Leads state.fields.keys := by
    rw [Merging.fields_takeAll hState]
    apply hLeads.insertAll
    intro entry hEntry
    rw [leading, hDescriptions, Merging.ne_title_of_mem_taken hEntry]
    simp
  unfold Merging.result
  split
  · exact (hTaken.insert (leading_of_not_naming rfl) _).insert
      (leading_of_not_naming rfl) _
  · exact hTaken

end Standard

end SchemaLang
