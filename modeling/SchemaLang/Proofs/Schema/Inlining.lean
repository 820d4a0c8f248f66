import Mathlib.Data.List.Induction
import SchemaLang.Proofs.Schema.Reconciling

/-
  Properties that are stated one by one, or merged as a whole. To merge
  an object into another one is to state its properties there once
  more. The order of required names may differ, since an object does
  not tell how often its own properties were stated.

  Main declarations:
    * `Reconciled.putAll` and `Reconciled.standing_putAll`
    * `Reconciled.Similar`
    * `Reconciled.similar_take_putAll`
    * `Reconciled.take_putAll`
    * `Reconciled.similar_of_mem_merges` and `Reconciled.eq_of_mem_merges`
    * `Fields.merge_toFields`
    * `Schema.SameButOrder`
-/

namespace SchemaLang

/- A property that is stated, and whether it has to be there. -/
structure Stated where
  name : String
  required : Bool
  value : Schema

namespace Reconciled

------------------------------------------------------------
-- Stated One By One
------------------------------------------------------------

/- No properties. -/
def empty : Reconciled :=
  ⟨[], .empty⟩

/- State a property, behind those that were stated before. -/
def put
    (state : Reconciled)
    (stated : Stated) : Reconciled where
  required := demand state.required stated.name stated.required
  properties := state.properties.insert stated.name stated.value

/- State several properties in turn. -/
def putAll
    (state : Reconciled)
    (said : List Stated) : Reconciled :=
  said.foldl put state

/- The entries of an object with these properties. -/
def toFields
    (state : Reconciled) : Fields :=
  Fields.ofProperties state.required state.properties

@[simp] theorem ofFields_toFields
    (state : Reconciled) :
    ofFields state.toFields = state := by
  simp [ofFields, toFields]

theorem putAll_append
    (state : Reconciled)
    (first second : List Stated) :
    state.putAll (first ++ second) = (state.putAll first).putAll second :=
  List.foldl_append

variable {state state' : Reconciled}
variable {said : List Stated}

theorem properties_putAll
    (state : Reconciled)
    (said : List Stated) :
    (state.putAll said).properties =
      state.properties.insertAll
        (said.map fun stated => (stated.name, stated.value)) := by
  unfold putAll OrderedMap.insertAll
  induction said generalizing state with
  | nil => rfl
  | cons stated rest ih => exact ih (state.put stated)

theorem properties_putAll_of_nodup
    (hDistinct : (said.map Stated.name).Nodup) :
    (empty.putAll said).properties.toList =
      said.map fun stated => (stated.name, stated.value) := by
  rw [properties_putAll]
  apply OrderedMap.toList_ofList_of_nodup
  rw [Pairs.names, List.map_map]
  exact hDistinct

theorem nodup_putAll
    (hNodup : state.required.Nodup)
    (said : List Stated) :
    (state.putAll said).required.Nodup := by
  unfold putAll
  induction said generalizing state with
  | nil => exact hNodup
  | cons stated rest ih => exact ih (nodup_demand hNodup _ _)

theorem standing_put
    (state : Reconciled)
    (stated : Stated)
    (name : String) :
    (state.put stated).standing name =
      if stated.name = name then (some stated.value, stated.required)
      else state.standing name := by
  have hMember :
      (state.put stated).required.contains name =
        if stated.name = name then stated.required
        else state.required.contains name := by
    unfold put
    rw [Bool.eq_iff_iff, List.contains_iff_mem, mem_demand]
    by_cases hName : stated.name = name
    · simp [hName]
    · simp [hName, Ne.symm hName]
  unfold standing
  rw [hMember]
  unfold put
  rw [OrderedMap.get?_insert]
  split
  · rfl
  · rfl

/-
  A name that is stated stands as it would without anything before, and
  any other name as it did.
-/
theorem standing_putAll
    (state : Reconciled)
    (said : List Stated)
    (name : String) :
    (state.putAll said).standing name =
      if name ∈ (empty.putAll said).properties.keys then
        (empty.putAll said).standing name
      else state.standing name := by
  induction said using List.reverseRecOn with
  | nil => rfl
  | append_singleton said stated ih =>
      rw [putAll_append, putAll_append]
      change ((state.putAll said).put stated).standing name =
        if name ∈ ((empty.putAll said).put stated).properties.keys then
          ((empty.putAll said).put stated).standing name
        else state.standing name
      rw [standing_put, standing_put, ih]
      unfold put
      by_cases hName : stated.name = name
      · simp [hName, OrderedMap.mem_keys_insert]
      · simp [hName, OrderedMap.mem_keys_insert, Ne.symm hName]

------------------------------------------------------------
-- Merged As A Whole
------------------------------------------------------------

/- No property is the mark of a removal. -/
def KeepsAll
    (state : Reconciled) : Prop :=
  ∀ property ∈ state.properties.toList, property.2.isRemoval = false

theorem entry_of_kept
    {property : String × Schema}
    (hKept : property.2.isRemoval = false)
    (required : List String)
    (state : Reconciled) :
    entry required state property =
      state.put ⟨property.1, required.contains property.1, property.2⟩ := by
  unfold entry
  dsimp only
  rw [hKept]
  rfl

/- Properties that are all kept are stated once more. -/
theorem take_toFields
    {source : Reconciled}
    (hKept : source.KeepsAll)
    (state : Reconciled) :
    state.take source.toFields =
      state.putAll (source.properties.toList.map fun property =>
        ⟨property.1, source.required.contains property.1, property.2⟩) := by
  unfold take putAll
  rw [ofFields_toFields, List.foldl_map]
  apply List.foldl_ext
  intro state property hProperty
  exact entry_of_kept (hKept property hProperty) _ state

theorem properties_take
    {source : Reconciled}
    (hKept : source.KeepsAll)
    (state : Reconciled) :
    (state.take source.toFields).properties =
      state.properties.insertAll source.properties.toList := by
  rw [take_toFields hKept, properties_putAll, List.map_map]
  congr
  exact List.map_id _

theorem standing_take_toFields
    {source : Reconciled}
    (hKept : source.KeepsAll)
    (state : Reconciled)
    (name : String) :
    (state.take source.toFields).standing name =
      if name ∈ source.properties.keys then source.standing name
      else state.standing name := by
  have hProperties :
      (Fields.properties? source.toFields).getD .empty =
        source.properties := by
    simp [toFields]
  rw [standing_take]
  unfold told? Fields.property?
  rw [hProperties]
  cases hGet : source.properties.get? name with
  | none =>
      rw [if_neg (OrderedMap.get?_eq_none_iff.mp hGet)]
      rfl
  | some value =>
      have hMember := OrderedMap.mem_of_get? hGet
      have hName : name ∈ source.properties.keys :=
        OrderedMap.mem_keys_of_get? hGet
      rw [if_pos hName]
      simp [ruling, standing, toFields, hKept _ hMember, hGet]

/- The same properties, and the same required names in some order. -/
structure Similar
    (state state' : Reconciled) : Prop where
  required : state.required.Perm state'.required
  properties : state.properties = state'.properties

theorem Similar.refl
    (state : Reconciled) :
    state.Similar state :=
  ⟨.refl _, rfl⟩

theorem Similar.standing
    (hSimilar : state.Similar state')
    (name : String) :
    state.standing name = state'.standing name := by
  have hMember :
      state.required.contains name = state'.required.contains name := by
    rw [Bool.eq_iff_iff, List.contains_iff_mem, List.contains_iff_mem]
    exact hSimilar.required.mem_iff
  unfold Reconciled.standing
  rw [hSimilar.properties, hMember]

/-
  Whether properties are stated one by one, or stated apart and then
  merged, makes no difference but for the order of required names.
-/
theorem similar_take_putAll
    (hSimilar : state.Similar state')
    (hNodup : state'.required.Nodup)
    (hKept : (empty.putAll said).KeepsAll) :
    (state.take (empty.putAll said).toFields).Similar
      (state'.putAll said) where
  required := by
    have hStarts : state.required.Nodup :=
      hSimilar.required.nodup_iff.mpr hNodup
    rw [List.perm_ext_iff_of_nodup (nodup_take hStarts _)
      (nodup_putAll hNodup said)]
    intro name
    have hStanding :
        (state.take (empty.putAll said).toFields).standing name =
          (state'.putAll said).standing name := by
      rw [standing_take_toFields hKept,
        standing_putAll state', hSimilar.standing]
    have hContains := congrArg Prod.snd hStanding
    rw [← List.contains_iff_mem, ← List.contains_iff_mem]
    exact Bool.eq_iff_iff.mp hContains
  properties := by
    rw [properties_take hKept, properties_putAll, properties_putAll,
      hSimilar.properties]
    exact OrderedMap.insertAll_insertAll _ _ _

/- A name that is stated once stands as it is stated. -/
theorem standing_putAll_of_mem
    (hDistinct : (said.map Stated.name).Nodup)
    {stated : Stated}
    (hStated : stated ∈ said)
    (state : Reconciled) :
    (state.putAll said).standing stated.name =
      (some stated.value, stated.required) := by
  induction said generalizing state with
  | nil => cases hStated
  | cons first rest ih =>
      rw [List.map_cons, List.nodup_cons] at hDistinct
      rcases List.mem_cons.mp hStated with rfl | hRest
      · have hOnce :
            stated.name ∉ (empty.putAll rest).properties.keys := by
          rw [properties_putAll, OrderedMap.mem_keys_insertAll,
            Pairs.names, List.map_map]
          rintro (hEmpty | hRest)
          · cases hEmpty
          · exact hDistinct.1 hRest
        change ((state.put stated).putAll rest).standing _ = _
        rw [standing_putAll, if_neg hOnce, standing_put, if_pos rfl]
      · exact ih hDistinct.2 hRest (state.put first)

/- If no name is stated twice, it makes no difference at all. -/
theorem take_putAll
    (hDistinct : (said.map Stated.name).Nodup)
    (hKept : (empty.putAll said).KeepsAll)
    (state : Reconciled) :
    state.take (empty.putAll said).toFields = state.putAll said := by
  have hRestated :
      (said.map fun stated =>
        (⟨stated.name, (empty.putAll said).required.contains stated.name,
          stated.value⟩ : Stated)) = said := by
    refine (List.map_congr_left fun stated hStated => ?_).trans
      (List.map_id said)
    have hRequired :
        (empty.putAll said).required.contains stated.name =
          stated.required :=
      congrArg Prod.snd (standing_putAll_of_mem hDistinct hStated empty)
    rw [hRequired]
    rfl
  rw [take_toFields hKept, properties_putAll_of_nodup hDistinct,
    List.map_map]
  exact congrArg state.putAll hRestated

/-
  Two objects whose properties are stated apart are merged into an empty
  object, or the second one into the first one.
-/
def merges
    (first second : List Stated) : List Reconciled :=
  [(empty.take (empty.putAll first).toFields).take
      (empty.putAll second).toFields,
    (empty.putAll first).take (empty.putAll second).toFields]

/- Both is like stating all properties in turn. -/
theorem similar_of_mem_merges
    {first second : List Stated}
    (hFirst : (empty.putAll first).KeepsAll)
    (hSecond : (empty.putAll second).KeepsAll) :
    ∀ merged ∈ merges first second,
      merged.Similar (empty.putAll (first ++ second)) := by
  have hEmpty : (empty.required).Nodup := List.nodup_nil
  have hNodup := nodup_putAll hEmpty first
  have hStart := similar_take_putAll (.refl empty) hEmpty hFirst
  rw [putAll_append]
  simp only [merges, List.forall_mem_cons, List.not_mem_nil, false_implies,
    implies_true, and_true]
  exact ⟨similar_take_putAll hStart hNodup hSecond,
    similar_take_putAll (.refl _) hNodup hSecond⟩

/- It is the same if no name is stated twice in one of the objects. -/
theorem eq_of_mem_merges
    {first second : List Stated}
    (hFirst : (empty.putAll first).KeepsAll)
    (hSecond : (empty.putAll second).KeepsAll)
    (hFirstNames : (first.map Stated.name).Nodup)
    (hSecondNames : (second.map Stated.name).Nodup) :
    ∀ merged ∈ merges first second,
      merged = empty.putAll (first ++ second) := by
  rw [putAll_append]
  simp only [merges, List.forall_mem_cons, List.not_mem_nil, false_implies,
    implies_true, and_true]
  rw [take_putAll hFirstNames hFirst, take_putAll hSecondNames hSecond]
  exact ⟨rfl, rfl⟩

end Reconciled

/- Two objects of properties are merged to such an object. -/
theorem Fields.merge_toFields
    (state source : Reconciled)
    (span : Span) :
    Fields.merge state.toFields [.object source.toFields] span =
      .ok (state.take source.toFields).toFields := by
  have hMerges :
      merge state.toFields [.object source.toFields] span =
        .ok (Merging.result true
          ⟨state.toFields,
            (Reconciled.ofFields state.toFields).take source.toFields⟩) :=
    rfl
  rw [hMerges, Reconciled.ofFields_toFields]
  rfl

------------------------------------------------------------
-- Schemas
------------------------------------------------------------

namespace Schema

/- Whether a property is the mark of a removal, and nothing else. -/
def statesRemoval
    (schema : Schema) : Bool :=
  ((schema.fields?.bind Fields.properties?).getD .empty).toList.any
    fun property => property.2.isRemoval

/- Two maps differ at most in the order of required names. -/
def SameButOrder
    (schema schema' : Schema) : Prop :=
  ∃ fields names names',
    schema = .object (Fields.setRequired fields names) ∧
      schema' = .object (Fields.setRequired fields names') ∧
        names.Perm names'

theorem SameButOrder.perm_requiredNames
    {fields fields' : Fields}
    (hSame : (object fields).SameButOrder (object fields')) :
    (Fields.requiredNames fields).Perm (Fields.requiredNames fields') := by
  rcases hSame with ⟨common, names, names', hFirst, hSecond, hPerm⟩
  cases hFirst
  cases hSecond
  rw [Fields.requiredNames_setRequired, Fields.requiredNames_setRequired]
  exact hPerm

variable {state state' : Reconciled}

theorem keepsAll_of_statesRemoval
    (hKept : (object state.toFields).statesRemoval = false) :
    state.KeepsAll := by
  intro property hProperty
  unfold statesRemoval fields? at hKept
  rw [Option.bind_some, Reconciled.toFields,
    Fields.properties?_ofProperties, Option.getD_some,
    List.any_eq_false] at hKept
  exact Bool.eq_false_iff.mpr (hKept property hProperty)

theorem sameButOrder_of_similar
    (hSimilar : state.Similar state') :
    (object state.toFields).SameButOrder (object state'.toFields) := by
  refine ⟨state.toFields, state.required, state'.required, ?_, ?_,
    hSimilar.required⟩
  · rw [Reconciled.toFields, Fields.setRequired_ofProperties]
  · rw [Reconciled.toFields, Reconciled.toFields,
      Fields.setRequired_ofProperties, hSimilar.properties]

end Schema

end SchemaLang
