import SchemaLang.Proofs.Schema.View

/-
  Required names and properties of schemas that are seen alike. A view
  may hide one name; then only one of two maps may require it, or have
  it as a property, and the maps are still seen alike.

  Main declarations:
    * `View.SameNames`
    * `View.SameFields.requiredNames`
    * `View.SameFields.toggleRequired`
    * `View.SameFields.insertProperty` and
      `View.SameFields.removeProperty`
-/

namespace SchemaLang

open Schema (seen seenItems seenFields)

------------------------------------------------------------
-- Required Names
------------------------------------------------------------

namespace View

/- Of two lists of required names, the same names are seen. -/
def SameNames
    (view : View)
    (names names' : List String) : Prop :=
  names.filter view.lists = names'.filter view.lists

variable {view : View}

namespace SameNames

variable {names names' : List String}

theorem mem_iff
    (hNames : view.SameNames names names')
    {name : String}
    (hListed : view.lists name = true) :
    name ∈ names ↔ name ∈ names' := by
  have hFilter :
      name ∈ names.filter view.lists ↔
        name ∈ names'.filter view.lists := by
    rw [hNames]
  simpa [List.mem_filter, hListed] using hFilter

theorem append
    (hNames : view.SameNames names names')
    (name : String) :
    view.SameNames (names ++ [name]) (names' ++ [name]) := by
  unfold SameNames
  rw [List.filter_append, List.filter_append, hNames]

theorem without
    (hNames : view.SameNames names names')
    (name : String) :
    view.SameNames (Fields.without names name)
      (Fields.without names' name) := by
  have hSwap :
      ∀ list : List String,
        (Fields.without list name).filter view.lists =
          (list.filter view.lists).filter (· != name) :=
    fun list => List.filter_comm ..
  unfold SameNames
  rw [hSwap, hSwap, hNames]

/- A name that is not seen may be added or taken away. -/
theorem append_hidden
    {name : String}
    (hHidden : view.lists name = false)
    (names : List String) :
    view.SameNames (names ++ [name]) names := by
  unfold SameNames
  simp [List.filter_append, hHidden]

theorem without_hidden
    {name : String}
    (hHidden : view.lists name = false)
    (names : List String) :
    view.SameNames (Fields.without names name) names := by
  unfold SameNames Fields.without
  rw [List.filter_comm, List.filter_eq_self]
  intro other hOther
  have hListed : view.lists other = true := (List.mem_filter.mp hOther).2
  have hName : other ≠ name := by
    rintro rfl
    rw [hListed] at hHidden
    cases hHidden
  simpa using hName

end SameNames

end View

/- Whether a schema is a list of strings. -/
def Schema.isNames : Schema → Bool
  | array items => items.all fun item => item.string?.isSome
  | _ => false

namespace Schema

variable {view : View}

theorem exists_strings
    {schema : Schema}
    (hNames : schema.isNames = true) :
    ∃ names, schema = strings names := by
  cases schema with
  | array items =>
      induction items with
      | nil => exact ⟨[], rfl⟩
      | cons item rest ih =>
          rw [isNames, List.all_cons, Bool.and_eq_true] at hNames
          rcases ih hNames.2 with ⟨names, hRest⟩
          cases item with
          | string name =>
              refine ⟨name :: names, ?_⟩
              rw [array.inj hRest]
              rfl
          | _ => cases hNames.1
  | _ => cases hNames

@[simp] theorem seen_strings
    (names : List String) :
    (strings names).seen view = strings names := by
  unfold strings
  rw [seen, seenItems_eq, List.map_map]
  rfl

theorem names_strings
    (names : List String) :
    view.names (strings names) = strings (names.filter view.lists) := by
  have hAll :
      ((names.map string).all fun item => item.string?.isSome) =
        true := by
    simp [string?]
  simp only [strings, View.names, hAll, if_true, List.filter_map]
  rfl

/- A list of strings is seen as one, and nothing else is. -/
theorem isNames_names
    (schema : Schema) :
    (view.names (schema.seen view)).isNames = schema.isNames := by
  by_cases hNames : schema.isNames = true
  · rcases exists_strings hNames with ⟨names, rfl⟩
    rw [seen_strings, names_strings, hNames]
    simp [strings, isNames, string?]
  · cases schema with
    | array items =>
        have hOther :
            ¬ ((seenItems view items).all
              fun item => item.string?.isSome) = true := by
          simpa [seenItems_eq, Function.comp_def, isNames] using hNames
        rw [seen, View.names, if_neg hOther]
        simp [isNames, seenItems_eq, Function.comp_def]
    | _ => rfl

theorem names_seen
    {schema : Schema}
    (hNames : schema.isNames = false) :
    view.names (schema.seen view) = schema.seen view := by
  cases schema with
  | array items =>
      have hOther :
          ¬ ((seenItems view items).all
            fun item => item.string?.isSome) = true := by
        simpa [seenItems_eq, Function.comp_def, isNames] using hNames
      rw [seen, View.names, if_neg hOther]
  | _ => rfl

end Schema

namespace View

variable {view : View}

namespace SameFields

variable {fields fields' : Fields}

/-
  Required names are seen alike in two maps. Either both are lists of
  strings, which may differ in names that are not seen, or they are
  the same.
-/
theorem required
    (hFields : view.SameFields fields fields') :
    (∃ names names',
      fields.get? "required" = some (.strings names) ∧
        fields'.get? "required" = some (.strings names') ∧
        view.SameNames names names') ∨
      Fields.requiredNames fields = Fields.requiredNames fields' := by
  have hEntry := hFields.entry (shows_of_ne "required" (by decide))
  unfold Fields.requiredNames
  cases hGet : fields.get? "required" with
  | none =>
      rw [hGet] at hEntry
      rw [Option.map_eq_none_iff.mp hEntry.symm]
      exact .inr rfl
  | some value =>
      rw [hGet] at hEntry
      rcases Option.map_eq_some_iff.mp hEntry.symm with
        ⟨value', hGet', hValue⟩
      rw [hGet']
      simp only [View.entry, if_true] at hValue
      have hKind : value'.isNames = value.isNames := by
        simpa only [Schema.isNames_names] using
          congrArg Schema.isNames hValue
      cases hNames : value.isNames with
      | true =>
          rw [hNames] at hKind
          rcases Schema.exists_strings hNames with ⟨names, rfl⟩
          rcases Schema.exists_strings hKind with ⟨names', rfl⟩
          refine .inl ⟨names, names', rfl, rfl, ?_⟩
          simp only [Schema.seen_strings, Schema.names_strings] at hValue
          have hStrings := Schema.array.inj hValue
          exact (List.map_injective_iff.mpr
            (fun _ _ => Schema.string.inj) hStrings).symm
      | false =>
          rw [hNames] at hKind
          rw [Schema.names_seen hNames, Schema.names_seen hKind] at hValue
          have hSame : view.Same value value' := hValue.symm
          refine .inr ?_
          cases value with
          | array items =>
              rcases hSame.exists_items with ⟨items', rfl, hItems⟩
              have hStrings :=
                congrArg (List.filterMap Schema.string?) hItems
              simpa [Fields.stringsOf, Schema.seenItems_eq,
                List.filterMap_map, Function.comp_def] using hStrings
          | _ =>
              cases value' with
              | array items' => simp [Same, seen] at hSame
              | _ => rfl

theorem requiredNames
    (hFields : view.SameFields fields fields') :
    view.SameNames (Fields.requiredNames fields)
      (Fields.requiredNames fields') := by
  rcases hFields.required with
    ⟨names, names', hGet, hGet', hNames⟩ | hSame
  · unfold Fields.requiredNames
    rw [hGet, hGet']
    simpa [Schema.strings, Fields.stringsOf, List.filterMap_map,
      Function.comp_def, Schema.string?] using hNames
  · rw [hSame]
    rfl

theorem setRequired
    (hFields : view.SameFields fields fields')
    {names names' : List String}
    (hNames : view.SameNames names names') :
    view.SameFields (Fields.setRequired fields names)
      (Fields.setRequired fields' names') := by
  apply hFields.insertEntry
  simp only [View.entry, if_true, Schema.seen_strings,
    Schema.names_strings]
  rw [hNames]

/- Names that are seen alike may be required instead. -/
theorem setRequired_self
    {names names' : List String}
    (hGet : fields.get? "required" = some (.strings names))
    (hNames : view.SameNames names' names) :
    view.SameFields (Fields.setRequired fields names') fields := by
  have hShown : view.shows "required" = true :=
    shows_of_ne "required" (by decide)
  have hSeen := Schema.get?_seenFields fields hShown
  unfold SameFields Fields.setRequired
  rw [Schema.seenFields_insert, if_pos hShown,
    OrderedMap.insert_eq_self_iff, hSeen, hGet]
  simp only [View.entry, if_true, Schema.seen_strings,
    Schema.names_strings, Option.map_some]
  rw [hNames]

/-
  If the name is not seen, then only one of the lists may hold it.
  But then both are lists of strings, and are seen as they were.
-/
theorem toggleRequired
    (hFields : view.SameFields fields fields')
    (name : String)
    (wanted : Bool) :
    view.SameFields (Fields.toggleRequired fields name wanted)
      (Fields.toggleRequired fields' name wanted) := by
  have hNames := hFields.requiredNames
  by_cases hMember :
      (Fields.requiredNames fields).contains name =
        (Fields.requiredNames fields').contains name
  · unfold Fields.toggleRequired
    simp only [hMember]
    split
    · exact hFields.setRequired (hNames.append name)
    · split
      · exact hFields.setRequired (hNames.without name)
      · exact hFields
  · have hHidden : view.lists name = false := by
      rw [Bool.eq_false_iff]
      intro hListed
      apply hMember
      rw [Bool.eq_iff_iff, List.contains_iff_mem, List.contains_iff_mem]
      exact hNames.mem_iff hListed
    have hKept :
        ∀ (map : Fields) names,
          map.get? "required" = some (.strings names) →
            view.SameFields (Fields.toggleRequired map name wanted)
              map := by
      intro map names hGet
      have hRequired : Fields.requiredNames map = names := by
        unfold Fields.requiredNames
        rw [hGet]
        simp [Schema.strings, Fields.stringsOf, List.filterMap_map,
          Function.comp_def, Schema.string?]
      unfold Fields.toggleRequired
      simp only [hRequired]
      split
      · exact setRequired_self hGet (.append_hidden hHidden names)
      · split
        · exact setRequired_self hGet (.without_hidden hHidden names)
        · rfl
    rcases hFields.required with
      ⟨names, names', hGet, hGet', -⟩ | hSame
    · exact (hKept fields names hGet).trans
        (hFields.trans (hKept fields' names' hGet').symm)
    · exact absurd (by rw [hSame]) hMember

------------------------------------------------------------
-- Properties
------------------------------------------------------------

theorem properties?
    (hFields : view.SameFields fields fields') :
    (Fields.properties? fields).map (seenFields view) =
      (Fields.properties? fields').map (seenFields view) := by
  have hGet :=
    hFields.get? (shows_of_ne "properties" (by decide)) (by decide)
  have hBind := congrArg (fun map => map.bind Schema.fields?) hGet
  simpa [Fields.properties?, Option.bind_map, Option.map_bind,
    Function.comp_def] using hBind

/- Either both maps have properties that are seen alike, or none. -/
theorem properties_cases
    (hFields : view.SameFields fields fields') :
    (Fields.properties? fields = none ∧
      Fields.properties? fields' = none) ∨
      ∃ properties properties',
        Fields.properties? fields = some properties ∧
          Fields.properties? fields' = some properties' ∧
          view.SameFields properties properties' := by
  have hSame := hFields.properties?
  cases hFirst : Fields.properties? fields with
  | none =>
      rw [hFirst] at hSame
      exact .inl ⟨rfl, Option.map_eq_none_iff.mp hSame.symm⟩
  | some properties =>
      rw [hFirst] at hSame
      rcases Option.map_eq_some_iff.mp hSame.symm with
        ⟨properties', hSecond, hSeen⟩
      exact .inr ⟨properties, properties', rfl, hSecond, hSeen.symm⟩

theorem getD_properties?
    (hFields : view.SameFields fields fields') :
    view.SameFields ((Fields.properties? fields).getD .empty)
      ((Fields.properties? fields').getD .empty) := by
  rcases hFields.properties_cases with
    ⟨hFirst, hSecond⟩ | ⟨properties, properties', hFirst, hSecond, hSame⟩
  · rw [hFirst, hSecond]
    rfl
  · rw [hFirst, hSecond]
    exact hSame

theorem insertProperty
    (hFields : view.SameFields fields fields')
    (name : String)
    {value value' : Schema}
    (hValue : view.Same value value') :
    view.SameFields (Fields.insertProperty fields name value)
      (Fields.insertProperty fields' name value') :=
  hFields.insert "properties"
    (same_object (hFields.getD_properties?.insert name hValue))

theorem removeProperty
    (hFields : view.SameFields fields fields')
    (name : String) :
    view.SameFields (Fields.removeProperty fields name)
      (Fields.removeProperty fields' name) := by
  unfold Fields.removeProperty
  rcases hFields.properties_cases with
    ⟨hFirst, hSecond⟩ | ⟨properties, properties', hFirst, hSecond, hSame⟩
  · rw [hFirst, hSecond]
    exact hFields
  · rw [hFirst, hSecond]
    exact hFields.insert "properties" (same_object (hSame.erase name))

end SameFields

theorem IsComplete.sameNames_iff
    (hComplete : view.IsComplete)
    {names names' : List String} :
    view.SameNames names names' ↔ names = names' := by
  unfold SameNames
  simp [hComplete.lists]

end View

end SchemaLang
