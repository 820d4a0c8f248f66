import SchemaLang.Proofs.Error
import SchemaLang.Proofs.Schema.Reconciling

/-
  Merging in one call or in several. What is merged in between states
  the required names and the properties that have been reconciled so
  far, so that a later call goes on where the earlier one has ended.
  Only the order of keys may differ.

  Main declarations:
    * `OrderedMap.Same`
    * `Fields.withObject` and `Fields.same_withObject`
    * `Merging.result_foldl_result`
    * `Schema.typeName?_of_merge`
    * `Schema.merge_append`
-/

namespace SchemaLang

------------------------------------------------------------
-- Maps In Any Order
------------------------------------------------------------

namespace OrderedMap

variable {α : Type}

/- The same names have the same values, perhaps in another order. -/
structure Same
    (map map' : OrderedMap α) : Prop where
  keys : map.keys.Perm map'.keys
  values : ∀ key, map.get? key = map'.get? key

namespace Same

variable {map map' map'' : OrderedMap α}

theorem refl
    (map : OrderedMap α) :
    map.Same map :=
  ⟨.refl _, fun _ => rfl⟩

theorem trans
    (hFirst : map.Same map')
    (hSecond : map'.Same map'') :
    map.Same map'' :=
  ⟨hFirst.keys.trans hSecond.keys,
    fun key => (hFirst.values key).trans (hSecond.values key)⟩

theorem insert
    (hSame : map.Same map')
    (key : String)
    (value : α) :
    Same (map.insert key value) (map'.insert key value) where
  keys := by
    rw [keys_insert, keys_insert]
    simp only [hSame.keys.mem_iff]
    split
    · exact hSame.keys
    · exact hSame.keys.append_right [key]
  values := by
    intro other
    rw [get?_insert, get?_insert, hSame.values]

theorem insertAll
    (hSame : map.Same map')
    (entries : List (String × α)) :
    Same (map.insertAll entries) (map'.insertAll entries) := by
  unfold OrderedMap.insertAll
  induction entries generalizing map map' with
  | nil => exact hSame
  | cons entry rest ih => exact ih (hSame.insert entry.1 entry.2)

end Same

/- The order of two insertions matters to the order of names alone. -/
theorem same_insert_comm
    (map : OrderedMap α)
    {key other : String}
    (hOther : key ≠ other)
    (value new : α) :
    Same ((map.insert key value).insert other new)
      ((map.insert other new).insert key value) where
  keys := by
    by_cases hKey : key ∈ map.keys
    · rw [insert_comm_of_mem hKey hOther]
    · by_cases hNew : other ∈ map.keys
      · rw [insert_comm_of_mem hNew (Ne.symm hOther)]
      · -- Both names are appended, in either order.
        simp only [keys_insert, hKey, hNew, if_false, List.mem_append,
          List.mem_singleton, hOther, Ne.symm hOther, or_self,
          List.append_assoc]
        exact (List.Perm.swap other key []).append_left map.keys
  values := by
    intro name
    simp only [get?_insert]
    split
    · rename_i hName
      rw [if_neg fun hKey => hOther (hKey.trans hName.symm)]
    · rfl

theorem same_insertAll_insert
    (map : OrderedMap α)
    {key : String}
    {entries : List (String × α)}
    (hEntries : key ∉ entries.map Prod.fst)
    (value : α) :
    Same ((map.insert key value).insertAll entries)
      ((map.insertAll entries).insert key value) := by
  induction entries generalizing map with
  | nil => exact .refl _
  | cons entry rest ih =>
      rw [List.map_cons, List.mem_cons, not_or] at hEntries
      have hFirst :=
        (same_insert_comm map hEntries.1 value entry.2).insertAll rest
      exact hFirst.trans (ih (map.insert entry.1 entry.2) hEntries.2)

end OrderedMap

------------------------------------------------------------
-- Properties That Are Written Back
------------------------------------------------------------

namespace Fields

/- The entries of an object with other properties. -/
def withObject
    (fields : Fields)
    (object : Reconciled) : Fields :=
  (setRequired fields object.required).insert "properties"
    (.object object.properties)

/- Properties that are written back twice are those of the second time. -/
theorem withObject_withObject
    (fields : Fields)
    (first second : Reconciled) :
    withObject (withObject fields first) second =
      withObject fields second := by
  unfold withObject setRequired
  have hRequired :
      "required" ∈
        (fields.insert "required" (.strings first.required)).keys :=
    OrderedMap.mem_keys_insert.mpr (.inl rfl)
  rw [← OrderedMap.insert_comm_of_mem hRequired (by decide),
    OrderedMap.insert_insert, OrderedMap.insert_insert]

variable {fields : Fields}
variable {entries : List (String × Schema)}

/- Other entries may come before or after that. -/
theorem same_withObject
    (hEntries :
      ∀ key ∈ ["required", "properties"], key ∉ entries.map Prod.fst)
    (first second : Reconciled) :
    OrderedMap.Same
      (withObject ((withObject fields first).insertAll entries) second)
      (withObject (fields.insertAll entries) second) := by
  have hMoved :
      OrderedMap.Same ((withObject fields first).insertAll entries)
        (withObject (fields.insertAll entries) first) :=
    (OrderedMap.same_insertAll_insert _ (hEntries _ (by simp)) _).trans
      ((OrderedMap.same_insertAll_insert _ (hEntries _ (by simp))
        _).insert _ _)
  rw [← withObject_withObject (fields.insertAll entries) first second]
  exact (hMoved.insert _ _).insert _ _

/- If the keys have their places, not even the order changes. -/
theorem withObject_insertAll
    (hEntries :
      ∀ key ∈ ["required", "properties"], key ∉ entries.map Prod.fst)
    (hKeys : ∀ key ∈ ["required", "properties"], key ∈ fields.keys)
    (first second : Reconciled) :
    withObject ((withObject fields first).insertAll entries) second =
      withObject (fields.insertAll entries) second := by
  have hRequired : "required" ∈ fields.keys := hKeys _ (by simp)
  have hProperties :
      "properties" ∈ (setRequired fields first.required).keys :=
    OrderedMap.mem_keys_insert.mpr (.inr (hKeys _ (by simp)))
  have hMoved :
      (withObject fields first).insertAll entries =
        withObject (fields.insertAll entries) first := by
    unfold withObject
    rw [OrderedMap.insertAll_insert_of_mem hProperties
      (hEntries _ (by simp))]
    unfold setRequired
    rw [OrderedMap.insertAll_insert_of_mem hRequired
      (hEntries _ (by simp))]
  rw [hMoved, withObject_withObject]

end Fields

------------------------------------------------------------
-- What Is Taken Over
------------------------------------------------------------

namespace Merging

variable (sources : List Schema)
variable (state : Merging)

/- What is taken over one by one is inserted in turn. -/
theorem fields_foldl_take
    (isObject : Bool) :
    ((maps sources).foldl (take isObject) state).fields =
      state.fields.insertAll (taken isObject sources) := by
  unfold taken OrderedMap.insertAll
  induction sources generalizing state with
  | nil => rfl
  | cons source rest ih =>
      rw [List.flatMap_cons, List.foldl_append]
      cases source with
      | object given => exact ih (take isObject state given)
      | _ => exact ih state

/- Required names and properties are not among them. -/
theorem not_mem_taken :
    ∀ key ∈ ["required", "properties"],
      key ∉ (taken true sources).map Prod.fst := by
  intro key hKey hTaken
  rcases List.mem_map.mp hTaken with ⟨entry, hEntry, rfl⟩
  rcases List.mem_flatMap.mp hEntry with ⟨source, -, hFiltered⟩
  have hKept := (List.mem_filter.mp hFiltered).2
  simp only [List.mem_cons, List.not_mem_nil, or_false] at hKey
  rcases hKey with hKey | hKey
  · simp [hKey, skips] at hKept
  · simp [hKey, skips] at hKept

theorem maps_append
    (first second : List Schema) :
    maps (first ++ second) = maps first ++ maps second :=
  List.filterMap_append

variable {type : Option String}

theorem stray?_append_of_some
    {first : List Schema}
    {source : Schema}
    (hStray : stray? type first = some source)
    (second : List Schema) :
    stray? type (first ++ second) = some source := by
  unfold stray? at hStray ⊢
  rw [List.find?_append, hStray]
  rfl

theorem stray?_append_of_none
    {first : List Schema}
    (hNone : stray? type first = none)
    (second : List Schema) :
    stray? type (first ++ second) = stray? type second := by
  unfold stray? at hNone ⊢
  rw [List.find?_append, hNone]
  rfl

/-
  Merging further maps into a result is merging them into what had been
  taken over so far, up to the order of keys. In an object, this needs
  the keys that are written back in the end to have their places.
-/
theorem result_foldl_result
    (isObject : Bool) :
    let later :=
      ((maps sources).foldl (take isObject)
        ⟨state.result isObject,
          Reconciled.ofFields (state.result isObject)⟩).result isObject
    let whole :=
      ((maps sources).foldl (take isObject) state).result isObject
    OrderedMap.Same later whole ∧
      ((isObject = true →
          ∀ key ∈ ["required", "properties"],
            key ∈ state.fields.keys) →
        later = whole) := by
  dsimp only
  cases isObject with
  | false =>
      have hSame :
          ((maps sources).foldl (take false)
            ⟨state.result false,
              Reconciled.ofFields (state.result false)⟩).result false =
            ((maps sources).foldl (take false) state).result false := by
        simp only [result, Bool.false_eq_true, if_false,
          fields_foldl_take]
      exact ⟨hSame ▸ .refl _, fun _ => hSame⟩
  | true =>
      have hResult :
          ∀ state : Merging,
            state.result true =
              Fields.withObject state.fields state.object :=
        fun _ => rfl
      rw [ofFields_result]
      simp only [hResult, fields_foldl_take, object_foldl_take]
      have hTaken := not_mem_taken sources
      exact ⟨Fields.same_withObject hTaken _ _, fun hKeys =>
        Fields.withObject_insertAll hTaken (hKeys trivial) _ _⟩

end Merging

------------------------------------------------------------
-- Successive Calls
------------------------------------------------------------

namespace Schema

open Merging (stray?)

variable {fields merged : Fields}
variable {sources : List Schema}
variable {span : Span}

/- Merging keeps the type that is stated. -/
theorem typeName?_of_merge
    (hMerges : Fields.merge fields sources span = .ok merged) :
    (object merged).typeName? = (object fields).typeName? := by
  cases hStray : stray? (object fields).typeName? sources with
  | some source =>
      rw [Fields.merge_of_stray hStray] at hMerges
      cases hMerges
  | none =>
      have hTypes := Merging.stray?_eq_none_iff.mp hStray
      rw [Fields.merge_of_none rfl hStray] at hMerges
      have hType :
          merged.get? "type" =
            ((Merging.lastHaving? "type" sources).bind
              (·.get? "type")).or (fields.get? "type") := by
        rw [← Except.ok.inj hMerges]
        exact (Merging.overwritten_result _ _).values "type"
          (by decide) fun _ => by decide
      unfold typeName? get? fields?
      rw [Option.bind_some, Option.bind_some, hType]
      -- A source that states a type states that of the target.
      cases hLast : Merging.lastHaving? "type" sources with
      | none => rfl
      | some last =>
          rcases Merging.isSome_of_lastTelling? hLast with
            ⟨hMember, hSome⟩
          rcases List.mem_filterMap.mp hMember with
            ⟨source, hSource, hFields⟩
          have hStated := hTypes source hSource
          cases source with
          | object given =>
              cases hFields
              rcases Option.isSome_iff_exists.mp hSome with
                ⟨value, hValue⟩
              unfold typeName? get? fields? at hStated
              rw [Option.bind_some, Option.bind_some] at hStated
              rw [← hStated, Option.bind_some, hValue]
              rfl
          | _ => cases hFields

/- Two schemas are maps with the same values, perhaps in another order. -/
def SameMap
    (schema schema' : Schema) : Prop :=
  ∃ fields fields',
    schema = .object fields ∧ schema' = .object fields' ∧
      OrderedMap.Same fields fields'

/- The schema is a map that has all of some keys. -/
def HasKeys
    (schema : Schema)
    (keys : List String) : Prop :=
  ∀ key ∈ keys, (schema.get? key).isSome = true

/-
  Sources can be merged in two calls or in one. Both ways fail with the
  same error, or both end with the same map. Its values are equal as
  they are, so that required names and properties are in the same
  order; the keys of the map itself are so, too, unless the target is
  an object that lacks one of these two.
-/
theorem merge_append
    (target : Schema)
    (first second : List Schema)
    (method : String)
    (span : Span) :
    Matches Eq
      (fun later whole =>
        later.SameMap whole ∧
          ((target.typeName? = some "object" →
              target.HasKeys ["required", "properties"]) →
            later = whole))
      (target.merge first method span >>= fun merged =>
        merged.merge second method span)
      (target.merge (first ++ second) method span) := by
  cases target with
  | object fields =>
      cases hStray : stray? (object fields).typeName? first with
      | some source =>
          rw [merge_object, merge_object, Fields.merge_of_stray hStray,
            Fields.merge_of_stray
              (Merging.stray?_append_of_some hStray second)]
          exact .error _ rfl
      | none =>
          have hMerges :
              Fields.merge fields first span = .ok _ :=
            Fields.merge_of_none rfl hStray
          have hType := typeName?_of_merge hMerges
          rw [merge_object, merge_object, hMerges]
          change Matches Eq _ ((object _).merge second method span) _
          rw [merge_object]
          cases hSecond : stray? (object fields).typeName? second with
          | some source =>
              rw [Fields.merge_of_stray (hType.symm ▸ hSecond),
                Fields.merge_of_stray
                  ((Merging.stray?_append_of_none hStray second).trans
                    hSecond)]
              unfold typeLabel
              rw [hType]
              exact .error _ rfl
          | none =>
              rw [Fields.merge_of_none hType hSecond,
                Fields.merge_of_none rfl
                  ((Merging.stray?_append_of_none hStray second).trans
                    hSecond),
                Merging.maps_append, List.foldl_append]
              refine .ok
                ⟨⟨_, _, rfl, rfl,
                  (Merging.result_foldl_result _ _ _).1⟩,
                fun hKeys =>
                  congrArg object
                    ((Merging.result_foldl_result _ _ _).2
                      fun hObject key hKey => ?_)⟩
              rw [Merging.fields_foldl_take,
                OrderedMap.mem_keys_insertAll]
              have hHas := hKeys (eq_of_beq hObject) key hKey
              exact .inl (OrderedMap.contains_iff.mp hHas)
  | _ => exact .error _ rfl

/- An object that states no more than its type. -/
def bareObject : Schema :=
  .object (.single "type" (.string "object"))

/- A source with a property, and another one with a new key. -/
def bareChanges : List Schema × List Schema :=
  ([.object (Fields.ofProperties ["a"] (.single "a" (.bool true)))],
    [.object
      (.of [("type", .string "object"), ("minProperties", .bool true)])])

/- The new key stands before the properties if it comes in one call. -/
theorem merge_append_bare :
    ∃ later whole : Fields,
      (bareObject.merge bareChanges.1 "merge" {} >>= fun merged =>
        merged.merge bareChanges.2 "merge" {}) =
          .ok (.object later) ∧
      bareObject.merge (bareChanges.1 ++ bareChanges.2) "merge" {} =
        .ok (.object whole) ∧
      (object later).SameMap (.object whole) ∧
      later.keys =
        ["type", "additionalProperties", "required", "properties",
          "minProperties"] ∧
      whole.keys =
        ["type", "additionalProperties", "minProperties", "required",
          "properties"] := by
  have hMatches : Matches Eq _ (.ok _) (.ok _) :=
    merge_append bareObject bareChanges.1 bareChanges.2 "merge" {}
  cases hMatches with
  | ok hSame =>
      exact ⟨_, _, rfl, rfl, hSame.1, by decide, by decide⟩

end Schema

end SchemaLang
