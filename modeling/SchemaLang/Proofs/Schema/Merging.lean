import SchemaLang.Proofs.Error
import SchemaLang.Proofs.Schema.Requiring
import SchemaLang.Schema.Merge

/-
  Merging, as it is seen. If targets and sources are seen alike, then
  they can be merged alike, and the merged schemas are seen alike.

  Main declarations:
    * `Reconciled.seen` and `Merging.seen`
    * `Reconciled.seen_take`
    * `View.SameFields.merge`
    * `View.Same.merge`
-/

namespace SchemaLang

open Schema (seen seenItems seenPairs seenFields)

namespace View

variable {view : View}

/- Names that are required are seen only where properties are. -/
theorem IsFair.lists_of_hidden
    (hFair : view.IsFair)
    {key : String}
    (hHidden : view.shows key = false) :
    view.lists key = false := by
  unfold shows at hHidden
  rw [Bool.or_eq_false_iff] at hHidden
  cases hDemands : view.demands with
  | false => simp [lists, hDemands, hHidden.2]
  | true =>
      rw [hFair hDemands] at hHidden
      cases hHidden.1

/- What is seen of required names when one more is demanded. -/
theorem filter_demand
    (required : List String)
    (name : String)
    (wanted : Bool) :
    (Reconciled.demand required name wanted).filter view.lists =
      Reconciled.demand (required.filter view.lists) name
        (wanted && view.lists name) := by
  have hWithout :
      ∀ names : List String,
        (Fields.without names name).filter view.lists =
          Fields.without (names.filter view.lists) name :=
    fun names => List.filter_comm ..
  unfold Reconciled.demand
  by_cases hListed : view.lists name = true
  · cases wanted with
    | false => simp [hWithout]
    | true =>
        by_cases hMember : name ∈ required
        · simp [hListed, hMember]
        · simp [hListed, hMember]
  · have hHidden : view.lists name = false := Bool.eq_false_iff.mpr hListed
    have hKept : Fields.without (required.filter view.lists) name =
        required.filter view.lists := by
      rw [← hWithout]
      exact SameNames.without_hidden hHidden required
    cases wanted with
    | false => simp [hWithout]
    | true =>
        simp only [hHidden, Bool.and_false, if_true, Bool.false_eq_true,
          if_false, hKept]
        split
        · rfl
        · exact SameNames.append_hidden hHidden required

end View

------------------------------------------------------------
-- Properties
------------------------------------------------------------

namespace Reconciled

variable {view : View}

/- What is seen of properties and of the names that are required. -/
def seen
    (view : View)
    (state : Reconciled) : Reconciled :=
  { required := state.required.filter view.lists
    properties := seenFields view state.properties }

/- A property that is seen is taken over in what is seen. -/
theorem seen_entry
    (required : List String)
    (state : Reconciled)
    {name : String}
    (hShown : view.shows name = true)
    (value : Schema) :
    (entry required state (name, value)).seen view =
      entry (required.filter view.lists) (state.seen view)
        (name, view.entry name (value.seen view)) := by
  have hWithout :
      (Fields.without state.required name).filter view.lists =
        Fields.without (state.required.filter view.lists) name :=
    List.filter_comm ..
  have hErase :
      seenFields view (state.properties.erase name) =
        OrderedMap.erase (seenFields view state.properties) name :=
    Schema.seenFields_filter state.properties (· != name)
  have hDemanded :
      (required.filter view.lists).contains name =
        (required.contains name && view.lists name) := by
    rw [Bool.eq_iff_iff]
    simp [List.mem_filter]
  unfold entry
  simp only [View.isRemoval_entry]
  by_cases hRemoval : value.isRemoval = true
  · simp only [hRemoval, if_true, seen, hWithout, hErase]
  · simp only [hRemoval, Bool.false_eq_true, if_false, seen,
      View.filter_demand, hDemanded, Schema.seenFields_insert, hShown,
      if_true]

/- Nothing is seen of a property that is not. -/
theorem seen_entry_hidden
    (hFair : view.IsFair)
    (required : List String)
    (state : Reconciled)
    {name : String}
    (hHidden : view.shows name = false)
    (value : Schema) :
    (entry required state (name, value)).seen view = state.seen view := by
  have hUnlisted := hFair.lists_of_hidden hHidden
  have hWithout :
      (Fields.without state.required name).filter view.lists =
        state.required.filter view.lists :=
    View.SameNames.without_hidden hUnlisted state.required
  have hErase :
      seenFields view (state.properties.erase name) =
        seenFields view state.properties :=
    (Schema.seenFields_filter state.properties (· != name)).trans
      (Schema.erase_seenFields hHidden state.properties)
  unfold entry
  by_cases hRemoval : value.isRemoval = true
  · simp only [hRemoval, if_true, seen, hWithout, hErase]
  · have hSwap :
        Fields.without (state.required.filter view.lists) name =
          (Fields.without state.required name).filter view.lists :=
      List.filter_comm ..
    have hKept :
        (demand state.required name
          (required.contains name)).filter view.lists =
          state.required.filter view.lists := by
      rw [View.filter_demand, hUnlisted, Bool.and_false]
      exact hSwap.trans hWithout
    simp only [hRemoval, Bool.false_eq_true, if_false, seen, hKept,
      Schema.seenFields_insert, hHidden]

/- The properties of a source are taken over as they are seen. -/
theorem seen_foldl_entry
    (hFair : view.IsFair)
    (required : List String)
    (properties : Pairs Schema)
    (state : Reconciled) :
    (properties.foldl (entry required) state).seen view =
      (seenPairs view properties).foldl
        (entry (required.filter view.lists)) (state.seen view) := by
  induction properties generalizing state with
  | nil => rfl
  | cons property rest ih =>
      rcases property with ⟨name, value⟩
      rw [List.foldl_cons, ih, seenPairs]
      cases hShown : view.shows name with
      | true =>
          rw [if_pos rfl, List.foldl_cons, seen_entry required state hShown]
      | false =>
          rw [if_neg (by simp), seen_entry_hidden hFair required state hShown]

/- What maps that are seen alike state is seen alike. -/
theorem seen_ofFields
    {fields fields' : Fields}
    (hFields : view.SameFields fields fields') :
    (ofFields fields).seen view = (ofFields fields').seen view := by
  have hNames :
      (Fields.requiredNames fields).filter view.lists =
        (Fields.requiredNames fields').filter view.lists :=
    hFields.requiredNames
  have hProperties :
      seenFields view ((Fields.properties? fields).getD .empty) =
        seenFields view ((Fields.properties? fields').getD .empty) :=
    hFields.getD_properties?
  simp only [ofFields, seen, hNames, hProperties]

theorem seen_take
    (hFair : view.IsFair)
    {state state' : Reconciled}
    (hState : state.seen view = state'.seen view)
    {source source' : Fields}
    (hSource : view.SameFields source source') :
    (state.take source).seen view = (state'.take source').seen view := by
  have hStated := seen_ofFields hSource
  have hNames := congrArg Reconciled.required hStated
  have hProperties := congrArg Reconciled.properties hStated
  simp only [seen] at hNames hProperties
  unfold take
  dsimp only
  rw [seen_foldl_entry hFair, seen_foldl_entry hFair, hNames,
    View.sameFields_iff.mp hProperties, hState]

end Reconciled

------------------------------------------------------------
-- Schemas
------------------------------------------------------------

namespace Merging

variable {view : View}

/- Two targets are seen alike, with all that has been taken over. -/
structure Same
    (view : View)
    (state state' : Merging) : Prop where
  fields : view.SameFields state.fields state'.fields
  object : state.object.seen view = state'.object.seen view

theorem Same.take
    (hFair : view.IsFair)
    {state state' : Merging}
    (hState : Same view state state')
    {source source' : Fields}
    (hSource : view.SameFields source source')
    (isObject : Bool) :
    Same view (state.take isObject source)
      (state'.take isObject source') where
  fields :=
    hState.fields.insertAll
      ((View.sameFields_iff.mp hSource).filter fun key =>
        !skips isObject key)
  object := by
    cases isObject with
    | false => exact hState.object
    | true => exact Reconciled.seen_take hFair hState.object hSource

/-
  A source is refused for its type alone. The induction is on the
  sources, and the targets are seen alike before each of them.
-/
theorem matches_takeAll
    (hFair : view.IsFair)
    {located : Span → Span → Prop}
    {span span' : Span}
    (hSpan : located span span')
    (type : Option String)
    {state state' : Merging}
    (hState : Same view state state')
    {sources sources' : List Schema}
    (hSources : view.SameItems sources sources') :
    Matches located (Same view) (takeAll type span state sources)
      (takeAll type span' state' sources') := by
  induction sources generalizing sources' state state' with
  | nil =>
      cases sources' with
      | nil => exact .ok hState
      | cons source' rest' => cases hSources
  | cons source rest ih =>
      cases sources' with
      | nil => cases hSources
      | cons source' rest' =>
          have hBoth := List.cons.inj hSources
          have hSource : view.Same source source' := hBoth.1
          have hRest : view.SameItems rest rest' := hBoth.2
          rw [takeAll.eq_def, takeAll.eq_def type span' state']
          simp only [Schema.typeLabel, hSource.typeName?]
          split
          · cases source with
            | object fields =>
                rcases hSource.exists_fields with
                  ⟨fields', rfl, hFields⟩
                exact ih (hState.take hFair hFields _) hRest
            | _ =>
                cases source' with
                | object fields' => simp [View.Same, seen] at hSource
                | _ => exact ih hState hRest
          · exact .error _ hSpan

theorem sameFields_result
    {state state' : Merging}
    (hState : Same view state state')
    (isObject : Bool) :
    view.SameFields (state.result isObject) (state'.result isObject) := by
  cases isObject with
  | false => exact hState.fields
  | true =>
      have hNames :
          view.SameNames state.object.required state'.object.required :=
        congrArg Reconciled.required hState.object
      have hProperties :
          view.SameFields state.object.properties
            state'.object.properties :=
        congrArg Reconciled.properties hState.object
      exact (hState.fields.setRequired hNames).insert "properties"
        (View.same_object hProperties)

end Merging

namespace View

variable {view : View}
variable {located : Span → Span → Prop}
variable {span span' : Span}
variable {sources sources' : List Schema}

/- Maps that are seen alike are merged alike. -/
theorem SameFields.merge
    (hFair : view.IsFair)
    {fields fields' : Fields}
    (hFields : view.SameFields fields fields')
    (hSources : view.SameItems sources sources')
    (hSpan : located span span') :
    Matches located view.SameFields (Fields.merge fields sources span)
      (Fields.merge fields' sources' span') := by
  have hStart :
      Merging.Same view ⟨fields, Reconciled.ofFields fields⟩
        ⟨fields', Reconciled.ofFields fields'⟩ :=
    ⟨hFields, Reconciled.seen_ofFields hFields⟩
  unfold Fields.merge
  rw [(same_object hFields).typeName?]
  exact (Merging.matches_takeAll hFair hSpan _ hStart hSources).bind
    fun state state' hState => .ok (Merging.sameFields_result hState _)

theorem Same.merge
    (hFair : view.IsFair)
    {target target' : Schema}
    (hTarget : view.Same target target')
    (hSources : view.SameItems sources sources')
    (method : String)
    (hSpan : located span span') :
    Matches located view.Same (target.merge sources method span)
      (target'.merge sources' method span') := by
  cases target with
  | object fields =>
      rcases hTarget.exists_fields with ⟨fields', rfl, hFields⟩
      exact (hFields.merge hFair hSources hSpan).bind
        fun merged merged' hMerged => .ok (same_object hMerged)
  | _ =>
      cases target' with
      | object fields' => simp [Same, seen] at hTarget
      | _ => exact .error _ hSpan

end View

end SchemaLang
