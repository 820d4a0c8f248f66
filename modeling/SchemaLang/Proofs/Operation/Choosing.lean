import SchemaLang.Proofs.Operation.Distinct
import SchemaLang.Proofs.Schema.Inlining

/-
  Properties that are picked, dropped or required after they were
  stated. If no name was stated twice, this is the same as to state
  the properties that are left, as they are to be, from the start. Names
  that come to be required are listed last, and not where they were
  stated.

  Main declarations:
    * `Call.choices?` and `Call.selection_of_choices`
    * `Call.requirement_of_strings`
    * `Stated.chosen` and `Stated.demanded`
    * `Reconciled.toFields_putAll`
    * `Fields.pick_putAll`, `Fields.drop_putAll` and
      `Fields.demandAll_putAll`
    * `Fields.sameButOrder_demandAll`
-/

namespace SchemaLang

------------------------------------------------------------
-- Arguments
------------------------------------------------------------

/- The name that a member selects, and the one that replaces it. -/
def Member.choice? : Member → Option (String × String)
  | property key _ value _ _ => do
    let name ← key.name?
    let renamed ← value.string?
    pure (name, renamed)
  | spread _ => none

/- A string selects itself, and an object literal what its members do. -/
def Expr.choices? : Expr → Option (List (String × String))
  | ⟨.string value, _⟩ => some [(value, value)]
  | ⟨.object members, _⟩ => members.mapM Member.choice?
  | _ => none

namespace Call

/- What arguments and the elements of those that are arrays select. -/
def choices?
    (args : List Expr) : Option (List (String × String)) := do
  let choices ← (args.flatMap flatArg).mapM Expr.choices?
  pure choices.flatten

/- What is read off a list is read off its elements, one by one. -/
theorem forall₂_of_mapM {α β : Type}
    {read : α → Option β}
    {items : List α}
    {values : List β}
    (hRead : items.mapM read = some values) :
    List.Forall₂ (fun item value => read item = some value) items
      values := by
  induction items generalizing values with
  | nil =>
      cases hRead
      exact .nil
  | cons item rest ih =>
      rw [List.mapM_cons] at hRead
      rcases Option.bind_eq_some_iff.mp hRead with ⟨first, hFirst, hRead⟩
      rcases Option.bind_eq_some_iff.mp hRead with ⟨others, hOthers, hAll⟩
      cases hAll
      exact .cons hFirst (ih hOthers)

variable {call : Call}

theorem selectMembers_of_choices
    {members : List Member}
    {choices : List (String × String)}
    (hChoices :
      List.Forall₂ (fun member choice => member.choice? = some choice)
        members choices)
    (selected : Selection) :
    call.selectMembers selected members =
      .ok (selected.insertAll choices) := by
  induction hChoices generalizing selected with
  | nil => rfl
  | @cons member choice _ _ hChoice _ ih =>
      cases member with
      | spread e => cases hChoice
      | property key computed value span comments =>
          rcases Option.bind_eq_some_iff.mp hChoice with
            ⟨name, hName, hChoice⟩
          rcases Option.bind_eq_some_iff.mp hChoice with
            ⟨renamed, hRenamed, hPair⟩
          cases hPair
          rw [selectMembers, hName, hRenamed]
          exact ih _

theorem selectItems_of_choices
    {items : List Expr}
    {choices : List (List (String × String))}
    (hChoices :
      List.Forall₂ (fun item choice => item.choices? = some choice)
        items choices)
    (selected : Selection) :
    call.selectItems selected items =
      .ok (selected.insertAll choices.flatten) := by
  induction hChoices generalizing selected with
  | nil => rfl
  | cons hFirst _ ih =>
      unfold Expr.choices? at hFirst
      split at hFirst
      · cases hFirst
        rw [selectItems]
        exact ih _
      · rw [selectItems, selectMembers_of_choices (forall₂_of_mapM hFirst)]
        refine (ih _).trans ?_
        unfold OrderedMap.insertAll
        rw [List.flatten_cons, List.foldl_append]
      · cases hFirst

/- Arguments that select names do so in turn. -/
theorem selection_of_choices
    {choices : List (String × String)}
    (hChoices : choices? call.args = some choices) :
    call.selection = .ok (OrderedMap.ofList choices) := by
  rcases Option.bind_eq_some_iff.mp hChoices with ⟨lists, hLists, hAll⟩
  cases hAll
  exact selectItems_of_choices (forall₂_of_mapM hLists) .empty

theorem stringsOr_of_strings
    {args : List Expr}
    {names : List String}
    (hNames :
      List.Forall₂ (fun arg name => arg.string? = some name) args names)
    (fault : ArgumentFault) :
    call.stringsOr fault args = .ok names := by
  induction hNames with
  | nil => rfl
  | cons hFirst _ ih =>
      rw [stringsOr, hFirst, ih]
      rfl

theorem atLeastOne_of_ne_nil
    (hArgs : call.args ≠ []) :
    call.atLeastOne = .ok () := by
  unfold atLeastOne
  rw [if_neg]
  rwa [List.isEmpty_iff]

/- Strings are names that are given one by one. -/
theorem requirement_of_strings
    {names : List String}
    (hArgs : call.args ≠ [])
    (hNames : call.args.mapM Expr.string? = some names) :
    call.requirement = .ok (.names names) := by
  unfold requirement
  rw [atLeastOne_of_ne_nil hArgs]
  dsimp only [bind, Except.bind]
  split
  · rename_i arg hArg
    rw [hArg] at hNames
    cases forall₂_of_mapM hNames with
    | cons hFirst hRest =>
        cases hRest
        rw [hFirst]
        rfl
  · unfold onlyStrings
    rw [stringsOr_of_strings (forall₂_of_mapM hNames)]
    rfl

end Call

------------------------------------------------------------
-- Methods
------------------------------------------------------------

namespace Method

variable (call : Call)
variable {names : List String}
variable (fields : Fields)

theorem pick_of_choices
    {choices : List (String × String)}
    (hArgs : call.args ≠ [])
    (hChoices : Call.choices? call.args = some choices) :
    pick.finish (.object fields) call () =
      .ok (.object (Fields.pick fields (OrderedMap.ofList choices))) := by
  unfold pick
  dsimp only
  rw [Call.atLeastOne_of_ne_nil hArgs, Call.selection_of_choices hChoices]
  rfl

section

variable (hArgs : call.args ≠ [])
variable (hNames : call.args.mapM Expr.string? = some names)

include hArgs hNames

theorem remove_of_strings :
    remove.finish (.object fields) call () =
      .ok (.object (Fields.drop fields names)) := by
  unfold remove Call.onlyStrings
  dsimp only
  rw [Call.atLeastOne_of_ne_nil hArgs,
    Call.stringsOr_of_strings (Call.forall₂_of_mapM hNames)]
  rfl

theorem required_of_strings :
    required.finish (.object fields) call () =
      .ok (.object (Fields.demandAll fields names true)) := by
  unfold required
  dsimp only
  rw [Call.requirement_of_strings hArgs hNames]
  rfl

theorem notRequired_of_strings :
    notRequired.finish (.object fields) call () =
      .ok (.object (Fields.demandAll fields names false)) := by
  unfold notRequired
  dsimp only
  rw [Call.requirement_of_strings hArgs hNames]
  rfl

end

end Method

------------------------------------------------------------
-- Properties That Were Stated Once
------------------------------------------------------------

namespace Stated

/- A property under the name that is selected for its own. -/
def chosen
    (selected : Call.Selection)
    (stated : Stated) : Option Stated :=
  (selected.get? stated.name).map fun renamed =>
    { stated with name := renamed }

/- A property that comes to be required or not, if it is named. -/
def demanded
    (names : List String)
    (wanted : Bool)
    (stated : Stated) : Stated :=
  if names.contains stated.name then { stated with required := wanted }
  else stated

@[simp] theorem name_demanded
    (names : List String)
    (wanted : Bool)
    (stated : Stated) :
    (stated.demanded names wanted).name = stated.name := by
  unfold demanded
  split
  · rfl
  · rfl

@[simp] theorem required_demanded
    (names : List String)
    (wanted : Bool)
    (stated : Stated) :
    (stated.demanded names wanted).required =
      if names.contains stated.name then wanted
      else stated.required := by
  unfold demanded
  split
  · rfl
  · rfl

/- The entry of a property. -/
def entry
    (stated : Stated) : String × Schema :=
  (stated.name, stated.value)

/- The map of properties. -/
def properties
    (said : List Stated) : Fields :=
  .ofList (said.map entry)

/- Properties that are stated once are in the map as they are stated. -/
theorem toList_properties
    {said : List Stated}
    (hDistinct : (said.map name).Nodup) :
    (properties said).toList = said.map entry := by
  apply OrderedMap.toList_ofList_of_nodup
  rw [Pairs.names, List.map_map]
  exact hDistinct

@[simp] theorem entry_demanded
    (names : List String)
    (wanted : Bool)
    (stated : Stated) :
    (stated.demanded names wanted).entry = stated.entry := by
  unfold demanded
  split
  · rfl
  · rfl

/- The names of the properties that have to be there. -/
def requiredNames
    (said : List Stated) : List String :=
  (said.filter required).map name

theorem mem_requiredNames
    {said : List Stated}
    {other : String} :
    other ∈ requiredNames said ↔
      ∃ stated ∈ said, stated.required = true ∧ stated.name = other := by
  simp [requiredNames, and_assoc]

theorem nodup_requiredNames
    {said : List Stated}
    (hDistinct : (said.map name).Nodup) :
    (requiredNames said).Nodup :=
  hDistinct.sublist (List.filter_sublist.map name)

theorem names_demanded
    (names : List String)
    (wanted : Bool)
    (said : List Stated) :
    (said.map (demanded names wanted)).map name = said.map name := by
  simp

theorem properties_demanded
    (names : List String)
    (wanted : Bool)
    (said : List Stated) :
    properties (said.map (demanded names wanted)) = properties said := by
  unfold properties
  simp [Function.comp_def]

/- Names that are no longer required leave the others in their order. -/
theorem requiredNames_dismissed
    (names : List String)
    (said : List Stated) :
    requiredNames (said.map (demanded names false)) =
      (requiredNames said).filter fun name => !names.contains name := by
  have hNames : name ∘ demanded names false = name :=
    funext (name_demanded names false)
  unfold requiredNames
  rw [List.filter_map, List.filter_map, List.filter_filter, List.map_map,
    hNames]
  congr
  funext stated
  by_cases hListed : stated.name ∈ names
  · simp [hListed]
  · simp [hListed]

/- Names that come to be required join those that are. -/
theorem mem_requiredNames_demanded
    {names : List String}
    {said : List Stated}
    (hNames : names ⊆ said.map name)
    {other : String} :
    other ∈ requiredNames (said.map (demanded names true)) ↔
      other ∈ names ∨ other ∈ requiredNames said := by
  rw [mem_requiredNames, mem_requiredNames]
  constructor
  · rintro ⟨changed, hChanged, hRequired, rfl⟩
    rcases List.mem_map.mp hChanged with ⟨stated, hStated, rfl⟩
    rw [name_demanded]
    by_cases hListed : stated.name ∈ names
    · exact .inl hListed
    · refine .inr ⟨stated, hStated, ?_, rfl⟩
      simpa [hListed] using hRequired
  · rintro (hListed | ⟨stated, hStated, hRequired, rfl⟩)
    -- A name that nothing states would be required only afterwards.
    · rcases List.mem_map.mp (hNames hListed) with ⟨stated, hStated, rfl⟩
      refine ⟨_, List.mem_map_of_mem hStated, ?_, name_demanded _ _ _⟩
      simp [hListed]
    · refine ⟨_, List.mem_map_of_mem hStated, ?_, name_demanded _ _ _⟩
      simp [hRequired]

theorem names_chosen
    (selected : Call.Selection)
    (said : List Stated) :
    (said.filterMap (chosen selected)).map name =
      (said.map name).filterMap selected.get? := by
  rw [List.map_filterMap, List.filterMap_map]
  congr
  funext stated
  simp [chosen, Function.comp_def]

theorem requiredNames_chosen
    (selected : Call.Selection)
    (said : List Stated) :
    requiredNames (said.filterMap (chosen selected)) =
      (requiredNames said).filterMap selected.get? := by
  unfold requiredNames
  rw [List.filter_filterMap, List.map_filterMap, List.filterMap_map,
    List.filterMap_filter]
  congr
  funext stated
  cases hGet : selected.get? stated.name with
  | none => simp [chosen, hGet]
  | some renamed =>
      cases hRequired : stated.required with
      | false => simp [chosen, hGet, hRequired, Option.filter]
      | true => simp [chosen, hGet, hRequired, Option.filter]

theorem requiredNames_append
    (said : List Stated)
    (stated : Stated) :
    requiredNames (said ++ [stated]) =
      requiredNames said ++
        if stated.required then [stated.name] else [] := by
  unfold requiredNames
  rw [List.filter_append, List.map_append]
  cases hRequired : stated.required with
  | false => simp [hRequired]
  | true => simp [hRequired]

end Stated

namespace Reconciled

variable {said : List Stated}

theorem demand_of_not_mem
    {required : List String}
    {name : String}
    (hNew : name ∉ required)
    (wanted : Bool) :
    demand required name wanted =
      required ++ if wanted then [name] else [] := by
  cases wanted with
  | false => simp [demand, Fields.without_of_not_mem hNew]
  | true => simp [demand, hNew]

/- Names that are not wanted are taken off the list. -/
theorem foldl_demand_false
    (names required : List String) :
    names.foldl (fun required name => demand required name false)
        required =
      required.filter fun name => !names.contains name := by
  induction names generalizing required with
  | nil => simp
  | cons name rest ih =>
      rw [List.foldl_cons, ih]
      unfold demand Fields.without
      rw [if_neg (by decide), List.filter_filter]
      congr
      funext other
      by_cases hName : other = name
      · simp [hName]
      · simp [hName]

/- Names that are wanted join the list. -/
theorem mem_foldl_demand_true
    {names required : List String}
    {other : String} :
    other ∈
        names.foldl (fun required name => demand required name true)
          required ↔
      other ∈ names ∨ other ∈ required := by
  induction names generalizing required with
  | nil => simp
  | cons name rest ih =>
      rw [List.foldl_cons, ih, mem_demand]
      by_cases hName : other = name
      · simp [hName]
      · simp [hName]

/- Names that are stated once are required in the order of stating. -/
theorem required_putAll_of_nodup
    (hDistinct : (said.map Stated.name).Nodup) :
    (empty.putAll said).required = Stated.requiredNames said := by
  -- A statement is put behind the others, so the last one goes first.
  induction said using List.reverseRecOn with
  | nil => rfl
  | append_singleton said stated ih =>
      rw [List.map_append, List.nodup_append] at hDistinct
      rcases hDistinct with ⟨hSaid, -, hApart⟩
      have hNew : stated.name ∉ Stated.requiredNames said := by
        intro hMember
        rcases List.mem_map.mp hMember with ⟨other, hOther, hName⟩
        have hOther := List.mem_of_mem_filter hOther
        exact hApart _ (List.mem_map_of_mem hOther) _
          List.mem_cons_self hName
      rw [Stated.requiredNames_append, ← demand_of_not_mem hNew, ← ih hSaid,
        putAll_append]
      rfl

/- Properties that are stated once are an object as they stand. -/
theorem toFields_putAll
    (hDistinct : (said.map Stated.name).Nodup) :
    (empty.putAll said).toFields =
      Fields.ofProperties (Stated.requiredNames said)
        (Stated.properties said) := by
  unfold toFields
  rw [required_putAll_of_nodup hDistinct, properties_putAll]
  rfl

end Reconciled

namespace Fields

variable (required : List String)
variable (properties : Fields)

theorem pick_ofProperties
    (selected : Call.Selection) :
    pick (ofProperties required properties) selected =
      ofProperties (required.filterMap selected.get?)
        (OrderedMap.ofList (picked properties selected)) := by
  rw [pick_eq_choosing, choosing_ofProperties]

theorem drop_ofProperties
    (names : List String) :
    drop (ofProperties required properties) names =
      ofProperties (required.filter fun name => !names.contains name)
        (properties.filter fun entry => !names.contains entry.1) := by
  rw [drop_eq_choosing, choosing_ofProperties]

theorem demandAll_ofProperties
    (names : List String)
    (wanted : Bool) :
    demandAll (ofProperties required properties) names wanted =
      ofProperties
        (names.foldl
          (fun required name => Reconciled.demand required name wanted)
          required)
        properties := by
  unfold demandAll
  rw [requiredNames_ofProperties, setRequired_ofProperties]

/- Required names change, and nothing else does. -/
theorem demandAll_toFields
    (state : Reconciled)
    (names : List String)
    (wanted : Bool) :
    demandAll state.toFields names wanted =
      Reconciled.toFields
        { state with
          required :=
            names.foldl
              (fun required name =>
                Reconciled.demand required name wanted)
              state.required } :=
  demandAll_ofProperties _ _ names wanted

section

variable {said : List Stated}
variable (hDistinct : (said.map Stated.name).Nodup)

include hDistinct

open Reconciled

/- To pick properties is to state those that are picked. -/
theorem pick_putAll
    {selected : Call.Selection}
    (hApart : selected.Separates (said.map Stated.name)) :
    pick (empty.putAll said).toFields selected =
      (empty.putAll (said.filterMap (Stated.chosen selected))).toFields := by
  have hChosen :
      ((said.filterMap (Stated.chosen selected)).map
        Stated.name).Nodup := by
    rw [Stated.names_chosen]
    exact (selected.nodup_filterMap_iff hDistinct).mpr hApart
  have hPicked :
      picked (Stated.properties said) selected =
        (said.filterMap (Stated.chosen selected)).map Stated.entry := by
    unfold picked
    rw [Stated.toList_properties hDistinct, List.map_filterMap,
      List.filterMap_map]
    congr
    funext stated
    simp [Stated.chosen, Stated.entry, Function.comp_def]
  rw [toFields_putAll hDistinct, toFields_putAll hChosen, pick_ofProperties,
    Stated.requiredNames_chosen, hPicked]
  rfl

/- To drop properties is to state the others. -/
theorem drop_putAll
    (names : List String) :
    drop (empty.putAll said).toFields names =
      (empty.putAll
        (said.filter fun stated =>
          !names.contains stated.name)).toFields := by
  have hKept :
      ((said.filter fun stated => !names.contains stated.name).map
        Stated.name).Nodup :=
    hDistinct.sublist (List.filter_sublist.map Stated.name)
  have hProperties :
      ((Stated.properties said).filter fun entry =>
        !names.contains entry.1) =
        Stated.properties
          (said.filter fun stated => !names.contains stated.name) := by
    apply OrderedMap.ext_toList
    rw [OrderedMap.toList_filter, Stated.toList_properties hDistinct,
      Stated.toList_properties hKept, List.filter_map]
    rfl
  rw [toFields_putAll hDistinct, toFields_putAll hKept, drop_ofProperties,
    hProperties]
  unfold Stated.requiredNames
  rw [List.filter_map, List.filter_filter, List.filter_filter]
  simp only [Function.comp_def, Bool.and_comm]

/- To stop requiring names is to state their properties as optional. -/
theorem demandAll_putAll
    (names : List String) :
    demandAll (empty.putAll said).toFields names false =
      (empty.putAll (said.map (Stated.demanded names false))).toFields := by
  have hChanged := (Stated.names_demanded names false said).symm ▸ hDistinct
  rw [toFields_putAll hDistinct, toFields_putAll hChanged,
    demandAll_ofProperties, foldl_demand_false,
    Stated.requiredNames_dismissed, Stated.properties_demanded]

/-
  To require names is to state their properties as required, but these
  names come last.
-/
theorem sameButOrder_demandAll
    {names : List String}
    (hNames : names ⊆ said.map Stated.name) :
    (Schema.object
        (demandAll (empty.putAll said).toFields names true)).SameButOrder
      (.object
        (empty.putAll
          (said.map (Stated.demanded names true))).toFields) := by
  have hChanged := (Stated.names_demanded names true said).symm ▸ hDistinct
  rw [toFields_putAll hDistinct, toFields_putAll hChanged,
    demandAll_ofProperties, Stated.properties_demanded]
  refine ⟨ofProperties [] (Stated.properties said), _, _,
    (congrArg _ (setRequired_ofProperties _ _ _)).symm,
    (congrArg _ (setRequired_ofProperties _ _ _)).symm, ?_⟩
  have hOnce := Stated.nodup_requiredNames hDistinct
  rw [List.perm_ext_iff_of_nodup (nodup_demandAll hOnce names true)
    (Stated.nodup_requiredNames hChanged)]
  intro name
  rw [mem_foldl_demand_true, Stated.mem_requiredNames_demanded hNames]

end

end Fields

end SchemaLang
