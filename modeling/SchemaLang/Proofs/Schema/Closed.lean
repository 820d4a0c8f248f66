import SchemaLang.Proofs.Schema.Properties
import SchemaLang.Proofs.Schema.Standard

/-
  Object schemas that are closed: each name that they require is the
  name of a property. Merging sources into such a schema, choosing
  from its properties and stating further ones keeps it closed.

  Main declarations:
    * `Fields.IsClosed` and `Schema.IsClosed`
    * `Fields.IsClosed.merge`
    * `Fields.IsClosed.stated` and `Fields.IsClosed.unstated`
    * `Fields.IsClosed.choosing` and `Fields.IsClosed.dismiss`
    * `Fields.get?_type_merge`
-/

namespace SchemaLang

------------------------------------------------------------
-- Closed Schemas
------------------------------------------------------------

/- Each name that is required is the name of a property. -/
def Fields.IsClosed
    (fields : Fields) : Prop :=
  ∀ name ∈ requiredNames fields,
    name ∈ ((properties? fields).getD .empty).keys

instance
    (fields : Fields) :
    Decidable (Fields.IsClosed fields) :=
  inferInstanceAs
    (Decidable
      (∀ name ∈ Fields.requiredNames fields,
        name ∈ ((Fields.properties? fields).getD .empty).keys))

/- So it is in a schema that is a map. -/
def Schema.IsClosed : Schema → Prop
  | object fields => Fields.IsClosed fields
  | _ => False

instance : (schema : Schema) → Decidable schema.IsClosed
  | .object fields => inferInstanceAs (Decidable (Fields.IsClosed fields))
  | .null => inferInstanceAs (Decidable False)
  | .bool _ => inferInstanceAs (Decidable False)
  | .number _ => inferInstanceAs (Decidable False)
  | .string _ => inferInstanceAs (Decidable False)
  | .array _ => inferInstanceAs (Decidable False)
  | .removal _ => inferInstanceAs (Decidable False)

namespace Fields

variable {fields : Fields}

theorem requiredNames_setRequired
    (fields : Fields)
    (names : List String) :
    requiredNames (setRequired fields names) = names := by
  unfold requiredNames setRequired
  rw [OrderedMap.get?_insert, if_pos rfl]
  exact stringsOf_map_string names

theorem properties?_setRequired
    (fields : Fields)
    (names : List String) :
    properties? (setRequired fields names) = properties? fields := by
  unfold properties? setRequired
  rw [OrderedMap.get?_insert, if_neg (by decide)]

theorem requiredNames_setProperties
    (fields properties : Fields) :
    requiredNames (fields.insert "properties" (.object properties)) =
      requiredNames fields := by
  unfold requiredNames
  rw [OrderedMap.get?_insert, if_neg (by decide)]

theorem properties?_setProperties
    (fields properties : Fields) :
    properties? (fields.insert "properties" (.object properties)) =
      some properties := by
  unfold properties?
  rw [OrderedMap.get?_insert, if_pos rfl]
  rfl

namespace IsClosed

/- Only two keys are looked at. -/
theorem congr
    {fields' : Fields}
    (hClosed : fields.IsClosed)
    (hRequired : fields'.get? "required" = fields.get? "required")
    (hProperties : fields'.get? "properties" = fields.get? "properties") :
    Fields.IsClosed fields' := by
  unfold IsClosed requiredNames properties? at hClosed ⊢
  rw [hRequired, hProperties]
  exact hClosed

/- Other names may be required, if they have properties. -/
theorem setRequired
    {names : List String}
    (hNames :
      ∀ name ∈ names, name ∈ ((properties? fields).getD .empty).keys) :
    (setRequired fields names).IsClosed := by
  unfold IsClosed
  rw [requiredNames_setRequired, properties?_setRequired]
  exact hNames

/- There may be other properties, if they have all required names. -/
theorem setProperties
    {properties : Fields}
    (hNames : ∀ name ∈ requiredNames fields, name ∈ properties.keys) :
    Fields.IsClosed (fields.insert "properties" (.object properties)) := by
  unfold IsClosed
  rw [requiredNames_setProperties, properties?_setProperties]
  exact hNames

end IsClosed

------------------------------------------------------------
-- Members Of Object Literals
------------------------------------------------------------

theorem requiredNames_toggleRequired
    (fields : Fields)
    (name : String)
    (required : Bool) :
    requiredNames (toggleRequired fields name required) =
      Reconciled.demand (requiredNames fields) name required := by
  unfold toggleRequired Reconciled.demand
  by_cases hMember : name ∈ requiredNames fields
  · cases required with
    | false => simp [hMember, requiredNames_setRequired]
    | true => simp [hMember]
  · cases required with
    | false => simp [hMember, without_of_not_mem hMember]
    | true => simp [hMember, requiredNames_setRequired]

theorem get?_toggleRequired
    (fields : Fields)
    (name : String)
    (required : Bool)
    {key : String}
    (hKey : key ≠ "required") :
    (toggleRequired fields name required).get? key =
      fields.get? key := by
  unfold toggleRequired setRequired
  dsimp only
  split
  · rw [OrderedMap.get?_insert, if_neg (Ne.symm hKey)]
  · split
    · rw [OrderedMap.get?_insert, if_neg (Ne.symm hKey)]
    · rfl

theorem get?_describeProperty
    (fields : Fields)
    (name : String)
    (comments : List Comment)
    {key : String}
    (hKey : key ≠ "properties") :
    (describeProperty fields name comments).get? key =
      fields.get? key := by
  unfold describeProperty
  split
  · rfl
  · split
    · rfl
    · rw [OrderedMap.get?_insert, if_neg (Ne.symm hKey)]

/- A description changes no name of a property. -/
theorem keys_describeProperty
    (fields : Fields)
    (name : String)
    (comments : List Comment) :
    ((properties? (describeProperty fields name comments)).getD .empty).keys =
      ((properties? fields).getD .empty).keys := by
  unfold describeProperty
  split
  · rfl
  · rename_i properties hProperties
    split
    · rfl
    · rename_i value hGet
      have hName : name ∈ properties.keys :=
        OrderedMap.mem_keys_of_get? hGet
      rw [properties?_setProperties, hProperties]
      exact OrderedMap.keys_insert_of_mem hName _

namespace IsClosed

/-
  A member states a property: its name is required or not, a property
  in front may be described, and then the property is there.
-/
theorem stated
    (hClosed : fields.IsClosed)
    (name : String)
    (required : Bool)
    (value : Schema)
    (comments : Comments)
    (previous : Option Member) :
    let described :=
      Member.describe (toggleRequired fields name required) value comments
        previous
    (insertProperty described.1 name described.2).IsClosed := by
  rcases Member.describe_cases (toggleRequired fields name required) value
      comments previous with ⟨others, own, hSame, hOthers⟩
  rw [hSame]
  have hRequired :
      requiredNames others =
        Reconciled.demand (requiredNames fields) name required := by
    rw [← requiredNames_toggleRequired]
    rcases hOthers with rfl | ⟨other, first, rfl⟩
    · rfl
    · unfold requiredNames
      rw [get?_describeProperty _ _ _ (by decide)]
  have hProperties :
      ((properties? others).getD .empty).keys =
        ((properties? fields).getD .empty).keys := by
    have hToggled :
        properties? (toggleRequired fields name required) =
          properties? fields := by
      unfold properties?
      rw [get?_toggleRequired _ _ _ (by decide)]
    rcases hOthers with rfl | ⟨other, first, rfl⟩
    · rw [hToggled]
    · rw [keys_describeProperty, hToggled]
  apply setProperties
  intro other hOther
  rw [hRequired, Reconciled.mem_demand] at hOther
  rw [OrderedMap.mem_keys_insert, hProperties]
  split at hOther
  · rename_i hName
    exact .inl hName
  · exact .inr (hClosed other hOther)

/- A member takes a property away, which is then not required. -/
theorem unstated
    (hClosed : fields.IsClosed)
    (name : String) :
    (removeProperty (toggleRequired fields name false) name).IsClosed := by
  have hRequired := requiredNames_toggleRequired fields name false
  have hProperties :
      properties? (toggleRequired fields name false) =
        properties? fields := by
    unfold properties?
    rw [get?_toggleRequired _ _ _ (by decide)]
  have hOthers :
      ∀ other ∈ requiredNames (toggleRequired fields name false),
        other ≠ name ∧ other ∈ ((properties? fields).getD .empty).keys := by
    intro other hOther
    rw [hRequired, Reconciled.mem_demand] at hOther
    split at hOther
    · cases hOther
    · rename_i hName
      exact ⟨hName, hClosed other hOther⟩
  unfold removeProperty
  rw [hProperties]
  split
  · rename_i properties hFound
    apply setProperties
    intro other hOther
    have hBoth := hOthers other hOther
    rw [hFound] at hBoth
    rw [OrderedMap.keys_erase, List.mem_filter]
    exact ⟨hBoth.2, by simpa using hBoth.1⟩
  · intro other hOther
    rw [hProperties]
    exact (hOthers other hOther).2

end IsClosed

------------------------------------------------------------
-- Chosen Properties
------------------------------------------------------------

theorem requiredNames_changeRequired
    (fields : Fields)
    {change : List String → List String}
    (hNil : change [] = []) :
    requiredNames (fields.changeRequired change) =
      change (requiredNames fields) := by
  unfold changeRequired
  split
  · exact requiredNames_setRequired fields _
  · rename_i hContains
    rw [OrderedMap.contains_iff, ← OrderedMap.get?_eq_none_iff] at hContains
    have hNames : requiredNames fields = [] := by
      unfold requiredNames
      rw [hContains]
    rw [hNames, hNil]

theorem properties?_changeRequired
    (fields : Fields)
    (change : List String → List String) :
    properties? (fields.changeRequired change) = properties? fields := by
  unfold changeRequired
  split
  · exact properties?_setRequired fields _
  · rfl

theorem requiredNames_choosing
    (fields : Fields)
    {change : List String → List String}
    (hNil : change [] = [])
    (choose : Fields → Fields) :
    requiredNames (fields.choosing change choose) =
      change (requiredNames fields) := by
  rw [← requiredNames_changeRequired fields hNil]
  unfold choosing
  dsimp only
  split
  · rfl
  · exact requiredNames_setProperties _ _

theorem properties?_choosing
    (fields : Fields)
    (change : List String → List String)
    (choose : Fields → Fields) :
    properties? (fields.choosing change choose) =
      (properties? fields).map choose := by
  have hSame := properties?_changeRequired fields change
  unfold choosing
  dsimp only
  rw [hSame]
  cases hFound : properties? fields with
  | none => exact hSame.trans hFound
  | some properties => exact properties?_setProperties _ _

/- All other keys stay as they are. -/
theorem get?_choosing
    (fields : Fields)
    (change : List String → List String)
    (choose : Fields → Fields)
    {key : String}
    (hKey : key ∉ ["required", "properties"]) :
    (fields.choosing change choose).get? key = fields.get? key := by
  simp only [List.mem_cons, List.not_mem_nil, or_false, not_or] at hKey
  have hChanged :
      (fields.changeRequired change).get? key = fields.get? key := by
    unfold changeRequired
    split
    · exact (OrderedMap.get?_insert ..).trans (if_neg (Ne.symm hKey.1))
    · rfl
  unfold choosing
  dsimp only
  split
  · exact hChanged
  · rw [OrderedMap.get?_insert, if_neg (Ne.symm hKey.2)]
    exact hChanged

namespace IsClosed

/-
  What is required by then has to be chosen, whatever the properties
  are. If there are no properties, no name is required.
-/
theorem choosing
    (hClosed : fields.IsClosed)
    {change : List String → List String}
    (hNil : change [] = [])
    {choose : Fields → Fields}
    (hChoose :
      ∀ (properties : Fields) names,
        (∀ name ∈ names, name ∈ properties.keys) →
          ∀ name ∈ change names, name ∈ (choose properties).keys) :
    (fields.choosing change choose).IsClosed := by
  unfold IsClosed at hClosed ⊢
  rw [requiredNames_choosing fields hNil, properties?_choosing]
  cases hFound : properties? fields with
  | none =>
      rw [hFound] at hClosed
      have hNames : requiredNames fields = [] :=
        List.eq_nil_iff_forall_not_mem.mpr fun name hName =>
          absurd (hClosed name hName) List.not_mem_nil
      rw [hNames, hNil]
      exact fun name hName => absurd hName List.not_mem_nil
  | some properties =>
      rw [hFound] at hClosed
      exact hChoose properties _ hClosed

/- What is required under a new name is picked under this name. -/
theorem pick
    (hClosed : fields.IsClosed)
    (selected : Call.Selection) :
    (pick fields selected).IsClosed := by
  rw [pick_eq_choosing]
  refine hClosed.choosing List.filterMap_nil ?_
  intro properties names hNames renamed hRenamed
  rcases List.mem_filterMap.mp hRenamed with ⟨name, hName, hSelected⟩
  rcases OrderedMap.exists_of_mem_keys (hNames name hName) with
    ⟨value, hEntry⟩
  refine OrderedMap.mem_keys_insertAll.mpr (.inr ?_)
  refine List.mem_map.mpr ⟨(renamed, value), ?_, rfl⟩
  refine List.mem_filterMap.mpr ⟨(name, value), hEntry, ?_⟩
  rw [hSelected]
  rfl

theorem drop
    (hClosed : fields.IsClosed)
    (names : List String) :
    (drop fields names).IsClosed := by
  rw [drop_eq_choosing]
  refine hClosed.choosing List.filter_nil ?_
  intro properties required hRequired name hName
  have hBoth := List.mem_filter.mp hName
  rw [OrderedMap.keys_filter properties fun name => !names.contains name]
  exact List.mem_filter.mpr ⟨hRequired name hBoth.1, hBoth.2⟩

/- To stop requiring names takes no property away. -/
theorem dismiss
    (hClosed : fields.IsClosed)
    (names : List String) :
    (demandAll fields names false).IsClosed := by
  apply setRequired
  have hStart :
      ∀ name ∈ requiredNames fields,
        name ∈ ((properties? fields).getD .empty).keys := hClosed
  generalize requiredNames fields = required at hStart ⊢
  induction names generalizing required with
  | nil => exact hStart
  | cons name rest ih =>
      apply ih
      intro other hOther
      rw [Reconciled.mem_demand] at hOther
      split at hOther
      · cases hOther
      · exact hStart other hOther

end IsClosed

end Fields

------------------------------------------------------------
-- Merging
------------------------------------------------------------

/- The names that are required so far are names of properties. -/
def Reconciled.IsClosed
    (state : Reconciled) : Prop :=
  ∀ name ∈ state.required, name ∈ state.properties.keys

namespace Reconciled.IsClosed

variable {state : Reconciled}

/-
  A removal drops a name from both; any other value puts the name
  among the properties before it is required.
-/
theorem entry
    (hClosed : state.IsClosed)
    (sourceRequired : List String)
    (property : String × Schema) :
    (Reconciled.entry sourceRequired state property).IsClosed := by
  rcases property with ⟨name, value⟩
  unfold Reconciled.entry
  dsimp only
  split
  · intro other hOther
    rw [OrderedMap.keys_erase, List.mem_filter]
    have hBoth := List.mem_filter.mp hOther
    exact ⟨hClosed other hBoth.1, hBoth.2⟩
  · intro other hOther
    rw [Reconciled.mem_demand] at hOther
    rw [OrderedMap.mem_keys_insert]
    split at hOther
    · rename_i hName
      exact .inl hName
    · exact .inr (hClosed other hOther)

theorem take
    (hClosed : state.IsClosed)
    (source : Fields) :
    (state.take source).IsClosed := by
  unfold Reconciled.take
  dsimp only
  generalize (ofFields source).properties.toList = properties
  induction properties generalizing state with
  | nil => exact hClosed
  | cons property rest ih => exact ih (hClosed.entry _ property)

end Reconciled.IsClosed

namespace Merging

theorem isClosed_takeAll
    {span : Span}
    {state merged : Merging}
    {sources : List Schema}
    (hClosed : state.object.IsClosed)
    (hMerges :
      takeAll (some "object") span state sources = .ok merged) :
    merged.object.IsClosed := by
  induction sources generalizing state with
  | nil =>
      cases hMerges
      exact hClosed
  | cons source rest ih =>
      unfold takeAll at hMerges
      split at hMerges
      · split at hMerges
        · exact ih (hClosed.take _) hMerges
        · exact ih hClosed hMerges
      · cases hMerges

end Merging

namespace Fields

variable {fields : Fields}

theorem IsClosed.merge
    {sources : List Schema}
    {span : Span}
    {merged : Fields}
    (hClosed : fields.IsClosed)
    (hType : (Schema.object fields).typeName? = some "object")
    (hMerges : merge fields sources span = .ok merged) :
    merged.IsClosed := by
  unfold Fields.merge at hMerges
  rw [hType] at hMerges
  rcases exists_of_bind_eq_ok hMerges with ⟨state, hState, hResult⟩
  cases hResult
  have hStart : (Reconciled.ofFields fields).IsClosed := hClosed
  have hObject := Merging.isClosed_takeAll hStart hState
  apply IsClosed.setProperties
  rw [requiredNames_setRequired]
  exact hObject

end Fields

------------------------------------------------------------
-- Types
------------------------------------------------------------

namespace Schema

theorem typeName?_eq_some_iff
    {fields : Fields}
    {type : String} :
    (object fields).typeName? = some type ↔
      fields.get? "type" = some (.string type) := by
  unfold typeName? get? fields?
  rw [Option.bind_some]
  constructor
  · intro hType
    rcases Option.bind_eq_some_iff.mp hType with ⟨value, hGet, hValue⟩
    cases value with
    | string text =>
        cases hValue
        exact hGet
    | _ => cases hValue
  · intro hGet
    rw [hGet]
    rfl

end Schema

/- Only sources of one type are merged. -/
theorem Merging.typeName?_of_takeAll
    {type : Option String}
    {span : Span}
    {state merged : Merging}
    {sources : List Schema}
    (hMerges : takeAll type span state sources = .ok merged) :
    ∀ source ∈ sources, source.typeName? = type := by
  induction sources generalizing state with
  | nil => simp
  | cons source rest ih =>
      unfold takeAll at hMerges
      split at hMerges
      · rename_i hType
        split at hMerges
        · exact List.forall_mem_cons.mpr ⟨hType, ih hMerges⟩
        · exact List.forall_mem_cons.mpr ⟨hType, ih hMerges⟩
      · cases hMerges

/- Sources state the type of the target, and no other. -/
theorem Fields.get?_type_merge
    {fields : Fields}
    {sources : List Schema}
    {span : Span}
    {merged : Fields}
    {type : String}
    (hType : fields.get? "type" = some (.string type))
    (hMerges : merge fields sources span = .ok merged) :
    merged.get? "type" = some (.string type) := by
  unfold Fields.merge at hMerges
  rw [Schema.typeName?_eq_some_iff.mpr hType] at hMerges
  rcases exists_of_bind_eq_ok hMerges with ⟨state, hState, hResult⟩
  cases hResult
  have hTaken : state.fields.get? "type" = some (.string type) := by
    rw [Merging.fields_takeAll hState]
    apply OrderedMap.get?_insertAll_of_forall hType
    intro entry hEntry hKey
    rcases List.mem_flatMap.mp hEntry with ⟨source, hSource, hKept⟩
    have hStated := Merging.typeName?_of_takeAll hState source hSource
    cases source with
    | object given =>
        have hMember := (List.mem_filter.mp hKept).1
        have hGet : OrderedMap.get? given entry.1 = some entry.2 :=
          OrderedMap.get?_eq_some_iff.mpr hMember
        rw [hKey, Schema.typeName?_eq_some_iff.mp hStated] at hGet
        exact (Option.some.inj hGet).symm
    | _ => cases hStated
  unfold Merging.result
  split
  · unfold setRequired
    rw [OrderedMap.get?_insert, if_neg (by decide),
      OrderedMap.get?_insert, if_neg (by decide)]
    exact hTaken
  · exact hTaken

end SchemaLang
