import Mathlib.Data.List.Nodup
import SchemaLang.Proofs.Schema.Closed

/-
  Merging, by the last writer. Sources of another type are refused; of
  the others, the last one that states a key or a property counts, and
  what no source states is left as it was.

  Main declarations:
    * `Merging.stray?` and `Merging.maps`
    * `Fields.merge_of_stray` and `Fields.merge_of_none`
    * `Merging.foldl_last`
    * `Reconciled.standing` and `Reconciled.standing_take`
    * `Reconciled.nodup_take`
    * `Fields.Overwritten` and `Fields.Restated`
    * `Schema.merge_last_writer`
-/

namespace SchemaLang

------------------------------------------------------------
-- Sources In Turn
------------------------------------------------------------

namespace Merging

/- The first source of another type. -/
def stray?
    (type : Option String)
    (sources : List Schema) : Option Schema :=
  sources.find? fun source => source.typeName? != type

/- The entries of the sources that are maps. -/
def maps
    (sources : List Schema) : List Fields :=
  sources.filterMap Schema.fields?

variable {type : Option String}
variable {span : Span}
variable {state : Merging}
variable {source : Schema}
variable {sources : List Schema}

theorem stray?_eq_none_iff :
    stray? type sources = none ↔
      ∀ source ∈ sources, source.typeName? = type := by
  simp [stray?]

theorem stray?_cons_of_eq
    (hType : source.typeName? = type)
    (sources : List Schema) :
    stray? type (source :: sources) = stray? type sources := by
  unfold stray?
  rw [List.find?_cons_of_neg (by simp [hType])]

theorem takeAll_of_stray
    (hStray : stray? type sources = some source) :
    takeAll type span state sources =
      .error ⟨.mergeTypes (type.getD "undefined") source.typeLabel,
        span⟩ := by
  fun_induction takeAll type span state sources with
  | case1 state => cases hStray
  | case2 state rest fields hType ih =>
      rw [stray?_cons_of_eq hType] at hStray
      exact ih hStray
  | case3 state first rest hType hOther ih =>
      rw [stray?_cons_of_eq hType] at hStray
      exact ih hStray
  | case4 state first rest hType =>
      unfold stray? at hStray
      rw [List.find?_cons_of_pos (by simpa using hType)] at hStray
      cases hStray
      rfl

theorem takeAll_of_none
    (hNone : stray? type sources = none) :
    takeAll type span state sources =
      .ok ((maps sources).foldl (take (type == some "object"))
        state) := by
  fun_induction takeAll type span state sources with
  | case1 state => rfl
  | case2 state rest fields hType ih =>
      rw [stray?_cons_of_eq hType] at hNone
      exact ih hNone
  | case3 state first rest hType hOther ih =>
      rw [stray?_cons_of_eq hType] at hNone
      rw [ih hNone]
      cases first with
      | object fields => exact absurd rfl (hOther fields)
      | _ => rfl
  | case4 state first rest hType =>
      exact absurd (stray?_eq_none_iff.mp hNone first List.mem_cons_self)
        hType

end Merging

namespace Fields

variable {fields : Fields}
variable {span : Span}
variable {source : Schema}
variable {sources : List Schema}

/- A source of another type is refused, and the first one is named. -/
theorem merge_of_stray
    (hStray :
      Merging.stray? (Schema.object fields).typeName? sources =
        some source) :
    merge fields sources span =
      .error ⟨.mergeTypes (Schema.object fields).typeLabel
        source.typeLabel, span⟩ := by
  unfold merge
  dsimp only
  rw [Merging.takeAll_of_stray hStray]
  rfl

/- If there is none, all maps are taken over in turn. -/
theorem merge_of_none
    {type : Option String}
    (hType : (Schema.object fields).typeName? = type)
    (hNone : Merging.stray? type sources = none) :
    merge fields sources span =
      .ok (((Merging.maps sources).foldl
        (Merging.take (type == some "object"))
        ⟨fields, Reconciled.ofFields fields⟩).result
          (type == some "object")) := by
  unfold merge
  dsimp only
  rw [hType, Merging.takeAll_of_none hNone]
  rfl

end Fields

------------------------------------------------------------
-- The Last Writer
------------------------------------------------------------

namespace Merging

variable {σ ρ : Type}

/- The last map that tells something. -/
def lastTelling?
    (tells : Fields → Option ρ)
    (sources : List Fields) : Option Fields :=
  (sources.filter fun source => (tells source).isSome).getLast?

theorem isSome_of_lastTelling?
    {tells : Fields → Option ρ}
    {sources : List Fields}
    {last : Fields}
    (hLast : lastTelling? tells sources = some last) :
    last ∈ sources ∧ (tells last).isSome = true :=
  List.mem_filter.mp (List.mem_of_getLast? hLast)

/-
  If each source either decides what is seen or leaves it, then what is
  seen behind all of them is what the last one tells.
-/
theorem foldl_last
    (view : σ → ρ)
    {tells : Fields → Option ρ}
    {step : σ → Fields → σ}
    (hStep :
      ∀ source state,
        view (step state source) = (tells source).getD (view state))
    (sources : List Fields)
    (state : σ) :
    view (sources.foldl step state) =
      ((lastTelling? tells sources).bind tells).getD (view state) := by
  induction sources generalizing state with
  | nil => rfl
  | cons source rest ih =>
      rw [List.foldl_cons, ih, hStep]
      cases hLast : lastTelling? tells rest with
      | none =>
          unfold lastTelling? at hLast ⊢
          rw [List.filter_cons]
          split
          · rw [List.getLast?_cons, hLast]
            rfl
          · rename_i hSilent
            rw [hLast, Option.not_isSome_iff_eq_none.mp hSilent]
            rfl
      | some last =>
          have hWhole :
              lastTelling? tells (source :: rest) = some last := by
            unfold lastTelling? at hLast ⊢
            rw [List.filter_cons]
            split
            · rw [List.getLast?_cons, hLast]
              rfl
            · exact hLast
          rcases Option.isSome_iff_exists.mp
              (isSome_of_lastTelling? hLast).2 with ⟨told, hTold⟩
          rw [hWhole, Option.bind_some, hTold]
          rfl

end Merging

------------------------------------------------------------
-- Properties
------------------------------------------------------------

/- The schema of a property. -/
def Fields.property?
    (fields : Fields)
    (name : String) : Option Schema :=
  ((Fields.properties? fields).getD .empty).get? name

namespace Reconciled

/- What stands behind a name: its property, and whether it is required. -/
def standing
    (state : Reconciled)
    (name : String) : Option Schema × Bool :=
  (state.properties.get? name, state.required.contains name)

/- What stands behind a name for which a source has a value. -/
def ruling
    (required : List String)
    (name : String)
    (value : Schema) : Option Schema × Bool :=
  if value.isRemoval then (none, false)
  else (some value, required.contains name)

/- What a source tells about a name. -/
def told?
    (name : String)
    (source : Fields) : Option (Option Schema × Bool) :=
  (source.property? name).map
    (ruling (Fields.requiredNames source) name)

/- A property decides about its own name, and about no other. -/
theorem standing_entry
    (required : List String)
    (state : Reconciled)
    (property : String × Schema)
    (name : String) :
    (entry required state property).standing name =
      if property.1 = name then ruling required name property.2
      else state.standing name := by
  rcases property with ⟨stated, value⟩
  unfold entry standing ruling
  dsimp only
  by_cases hRemoval : value.isRemoval = true
  · simp only [hRemoval, if_true, OrderedMap.get?_erase]
    by_cases hName : stated = name
    · simp [hName, Fields.without]
    · simp [hName, Fields.without, Ne.symm hName]
  · simp only [hRemoval, Bool.false_eq_true, if_false,
      OrderedMap.get?_insert]
    have hMember :
        (demand state.required stated (required.contains stated)).contains
            name =
          if stated = name then required.contains name
          else state.required.contains name := by
      rw [Bool.eq_iff_iff, List.contains_iff_mem, mem_demand]
      by_cases hName : stated = name
      · simp [hName]
      · simp [hName, Ne.symm hName]
    rw [hMember]
    split
    · rfl
    · rfl

theorem standing_foldl_entry
    (required : List String)
    {properties : Pairs Schema}
    (hDistinct : properties.names.Nodup)
    (state : Reconciled)
    (name : String) :
    (properties.foldl (entry required) state).standing name =
      ((properties.get? name).map (ruling required name)).getD
        (state.standing name) := by
  induction properties generalizing state with
  | nil => rfl
  | cons property rest ih =>
      rcases property with ⟨stated, value⟩
      rw [Pairs.names_cons, List.nodup_cons] at hDistinct
      rw [List.foldl_cons, ih hDistinct.2, standing_entry,
        Pairs.get?_cons]
      by_cases hName : stated = name
      · have hNone : Pairs.get? rest name = none :=
          Pairs.get?_eq_none_iff.mpr (hName ▸ hDistinct.1)
        rw [if_pos hName, if_pos hName, hNone]
        rfl
      · rw [if_neg hName, if_neg hName]

/- A source decides about the names of its properties. -/
theorem standing_take
    (source : Fields)
    (state : Reconciled)
    (name : String) :
    (state.take source).standing name =
      (told? name source).getD (state.standing name) :=
  standing_foldl_entry _ (OrderedMap.nodup_toList _) state name

theorem nodup_demand
    {required : List String}
    (hNodup : required.Nodup)
    (name : String)
    (wanted : Bool) :
    (demand required name wanted).Nodup := by
  cases wanted with
  | false => exact hNodup.filter _
  | true =>
      unfold demand
      rw [if_pos rfl]
      split
      · exact hNodup
      · rename_i hNew
        rw [List.contains_iff_mem] at hNew
        rw [← List.concat_eq_append]
        exact List.Nodup.concat hNew hNodup

theorem nodup_entry
    {state : Reconciled}
    (hNodup : state.required.Nodup)
    (sourceRequired : List String)
    (property : String × Schema) :
    (entry sourceRequired state property).required.Nodup := by
  unfold entry
  dsimp only
  split
  · exact hNodup.filter _
  · exact nodup_demand hNodup _ _

/- Whatever a source states, no name becomes required twice. -/
theorem nodup_take
    {state : Reconciled}
    (hNodup : state.required.Nodup)
    (source : Fields) :
    (take state source).required.Nodup := by
  unfold take
  dsimp only
  generalize (ofFields source).properties.toList = properties
  induction properties generalizing state with
  | nil => exact hNodup
  | cons property rest ih =>
      exact ih (nodup_entry hNodup _ property)

theorem nodup_foldl_take
    {state : Reconciled}
    (hNodup : state.required.Nodup)
    (sources : List Fields) :
    (sources.foldl take state).required.Nodup := by
  induction sources generalizing state with
  | nil => exact hNodup
  | cons source rest ih => exact ih (nodup_take hNodup source)

end Reconciled

------------------------------------------------------------
-- Keys
------------------------------------------------------------

namespace Merging

/- What a source tells about a key, if keys like it are taken over. -/
def value?
    (isObject : Bool)
    (key : String)
    (source : Fields) : Option (Option Schema) :=
  if skips isObject key then none else (source.get? key).map some

/- A source decides about the keys that it has and that are taken over. -/
theorem get?_take
    (source : Fields)
    (isObject : Bool)
    (state : Merging)
    (key : String) :
    (state.take isObject source).fields.get? key =
      (value? isObject key source).getD (state.fields.get? key) := by
  unfold take value?
  dsimp only
  rw [OrderedMap.get?_insertAll,
    Pairs.last?_filter fun key => !skips isObject key]
  cases skips isObject key with
  | true => rfl
  | false =>
      rw [OrderedMap.last?_toList]
      cases source.get? key <;> rfl

theorem keys_prefix_foldl_take
    (isObject : Bool)
    (sources : List Fields)
    (state : Merging) :
    state.fields.keys <+:
      (sources.foldl (take isObject) state).fields.keys := by
  induction sources generalizing state with
  | nil => exact List.prefix_refl _
  | cons source rest ih =>
      exact (OrderedMap.keys_prefix_insertAll state.fields _).trans
        (ih (state.take isObject source))

/- What becomes of the properties does not depend on other keys. -/
theorem object_foldl_take
    (sources : List Fields)
    (state : Merging) :
    (sources.foldl (take true) state).object =
      sources.foldl Reconciled.take state.object := by
  induction sources generalizing state with
  | nil => rfl
  | cons source rest ih => exact ih (state.take true source)

/- The result of merging objects states what has been reconciled. -/
theorem ofFields_result
    (state : Merging) :
    Reconciled.ofFields (state.result true) = state.object := by
  unfold Reconciled.ofFields result
  rw [if_pos rfl, Fields.requiredNames_setProperties,
    Fields.requiredNames_setRequired, Fields.properties?_setProperties]
  rfl

theorem get?_result
    {isObject : Bool}
    {key : String}
    (hKey : isObject = true → key ∉ ["required", "properties"])
    (state : Merging) :
    (state.result isObject).get? key = state.fields.get? key := by
  unfold result
  split
  · rename_i hObject
    have hOther := hKey hObject
    simp only [List.mem_cons, List.not_mem_nil, or_false,
      not_or] at hOther
    unfold Fields.setRequired
    rw [OrderedMap.get?_insert, if_neg (Ne.symm hOther.2),
      OrderedMap.get?_insert, if_neg (Ne.symm hOther.1)]
  · rfl

theorem keys_prefix_result
    (isObject : Bool)
    (state : Merging) :
    state.fields.keys <+: (state.result isObject).keys := by
  unfold result
  split
  · exact (OrderedMap.keys_prefix_insert state.fields _ _).trans
      (OrderedMap.keys_prefix_insert _ _ _)
  · exact List.prefix_refl _

end Merging

------------------------------------------------------------
-- Merged Schemas
------------------------------------------------------------

namespace Merging

/- The last source that has a key. -/
def lastHaving?
    (key : String)
    (sources : List Schema) : Option Fields :=
  lastTelling? (·.get? key) (maps sources)

/- The last source that has a property. -/
def lastStating?
    (name : String)
    (sources : List Schema) : Option Fields :=
  lastTelling? (·.property? name) (maps sources)

end Merging

namespace Fields

open Merging (lastHaving? lastStating?)

/-
  Keys are those of the target, in their order and with others behind
  them. Except for the title, a key has the value that the last source
  with this key has for it, or else the target.
-/
structure Overwritten
    (isObject : Bool)
    (fields : Fields)
    (sources : List Schema)
    (merged : Fields) : Prop where
  order : fields.keys <+: merged.keys
  title : merged.get? "title" = fields.get? "title"
  values :
    ∀ key, key ≠ "title" →
      (isObject = true → key ∉ ["required", "properties"]) →
        merged.get? key =
          ((lastHaving? key sources).bind (·.get? key)).or
            (fields.get? key)

/-
  A name stands as it does in the last source that has a property of
  this name; a removal takes the name away. If no source has one, the
  name stands as it did.
-/
structure Restated
    (fields : Fields)
    (sources : List Schema)
    (merged : Fields) : Prop where
  unstated :
    ∀ name, lastStating? name sources = none →
      merged.property? name = fields.property? name ∧
        (name ∈ requiredNames merged ↔ name ∈ requiredNames fields)
  removed :
    ∀ name source value,
      lastStating? name sources = some source →
        source.property? name = some value → value.isRemoval = true →
          merged.property? name = none ∧ name ∉ requiredNames merged
  stated :
    ∀ name source value,
      lastStating? name sources = some source →
        source.property? name = some value → value.isRemoval = false →
          merged.property? name = some value ∧
            (name ∈ requiredNames merged ↔ name ∈ requiredNames source)

end Fields

namespace Merging

variable {fields : Fields}
variable {sources : List Schema}

/- Maps tell something about a key exactly if they have it. -/
theorem lastTelling?_value?
    {isObject : Bool}
    {key : String}
    (hTaken : skips isObject key = false) :
    lastTelling? (value? isObject key) (maps sources) =
      lastHaving? key sources := by
  unfold lastHaving? lastTelling? value?
  simp only [hTaken, Bool.false_eq_true, if_false, Option.isSome_map]

/- They tell something about a name exactly if they have a property. -/
theorem lastTelling?_told?
    (name : String) :
    lastTelling? (Reconciled.told? name) (maps sources) =
      lastStating? name sources := by
  unfold lastStating? lastTelling? Reconciled.told?
  simp only [Option.isSome_map]

theorem overwritten_result
    (isObject : Bool)
    (object : Reconciled) :
    Fields.Overwritten isObject fields sources
      (((maps sources).foldl (take isObject) ⟨fields, object⟩).result
        isObject) := by
  have hValue :
      ∀ key, (isObject = true → key ∉ ["required", "properties"]) →
        (((maps sources).foldl (take isObject)
            ⟨fields, object⟩).result isObject).get? key =
          ((lastTelling? (value? isObject key) (maps sources)).bind
            (value? isObject key)).getD (fields.get? key) := by
    intro key hKey
    rw [get?_result hKey]
    exact foldl_last (fun state : Merging => state.fields.get? key)
      (fun source state => get?_take source isObject state key)
      (maps sources) ⟨fields, object⟩
  refine ⟨?_, ?_, ?_⟩
  · exact (keys_prefix_foldl_take isObject (maps sources)
      ⟨fields, object⟩).trans (keys_prefix_result isObject _)
  · have hSilent : ∀ source, value? isObject "title" source = none :=
      fun _ => rfl
    rw [hValue "title" fun _ => by decide]
    cases lastTelling? (value? isObject "title") (maps sources) with
    | none => rfl
    | some last => rw [Option.bind_some, hSilent, Option.getD_none]
  · intro key hTitle hKey
    have hTaken : skips isObject key = false := by
      cases isObject with
      | false => simp [skips, hTitle]
      | true => simpa [skips, hTitle] using hKey rfl
    rw [hValue key hKey, lastTelling?_value? hTaken]
    cases lastHaving? key sources with
    | none => rfl
    | some last =>
        rw [Option.bind_some, Option.bind_some, value?, hTaken]
        cases last.get? key <;> rfl

/- A name stands as the last source with such a property tells. -/
theorem standing_result
    (fields : Fields)
    (name : String) :
    (Reconciled.ofFields
        (((maps sources).foldl (take true)
          ⟨fields, Reconciled.ofFields fields⟩).result true)).standing
        name =
      ((lastStating? name sources).bind (Reconciled.told? name)).getD
        ((Reconciled.ofFields fields).standing name) := by
  rw [ofFields_result, object_foldl_take, ← lastTelling?_told?]
  exact foldl_last (fun state : Reconciled => state.standing name)
    (fun source state => Reconciled.standing_take source state name)
    (maps sources) (Reconciled.ofFields fields)

theorem restated_result
    (fields : Fields) :
    Fields.Restated fields sources
      (((maps sources).foldl (take true)
        ⟨fields, Reconciled.ofFields fields⟩).result true) := by
  have hStanding := @standing_result sources fields
  generalize ((maps sources).foldl (take true)
    ⟨fields, Reconciled.ofFields fields⟩).result true = merged at hStanding ⊢
  -- Both parts of what stands behind a name, one by one.
  have hParts :
      ∀ name ruled,
        ((lastStating? name sources).bind (Reconciled.told? name)).getD
            ((Reconciled.ofFields fields).standing name) = ruled →
          merged.property? name = ruled.1 ∧
            (Fields.requiredNames merged).contains name = ruled.2 := by
    rintro name _ rfl
    exact Prod.mk.inj (hStanding name)
  refine ⟨?_, ?_, ?_⟩
  · intro name hNone
    have hSame := hParts name ((Reconciled.ofFields fields).standing name)
      (by rw [hNone]; rfl)
    refine ⟨hSame.1, ?_⟩
    rw [← List.contains_iff_mem, hSame.2]
    exact List.contains_iff_mem
  · intro name source value hLast hValue hRemoval
    have hGone := hParts name (none, false) (by
      simp [hLast, Reconciled.told?, hValue, Reconciled.ruling, hRemoval])
    refine ⟨hGone.1, ?_⟩
    rw [← List.contains_iff_mem, hGone.2]
    exact Bool.false_ne_true
  · intro name source value hLast hValue hRemoval
    have hStated :=
      hParts name (some value, (Fields.requiredNames source).contains name)
        (by
          simp [hLast, Reconciled.told?, hValue, Reconciled.ruling,
            hRemoval])
    refine ⟨hStated.1, ?_⟩
    rw [← List.contains_iff_mem, hStated.2]
    exact List.contains_iff_mem

end Merging

namespace Schema

open Merging (stray?)

variable {target : Schema}
variable {sources : List Schema}
variable {method : String}
variable {span : Span}

/- A map is merged as its entries are. -/
theorem merge_object
    (fields : Fields) :
    (object fields).merge sources method span =
      Fields.merge fields sources span >>= fun merged =>
        pure (object merged) := rfl

/- Only maps are merged, and only with sources of their own type. -/
theorem merge_eq_error_iff :
    (∃ error, target.merge sources method span = .error error) ↔
      target.isMap = false ∨
        ∃ source ∈ sources, source.typeName? ≠ target.typeName? := by
  cases target with
  | object fields =>
      rw [merge_object]
      cases hStray : stray? (object fields).typeName? sources with
      | none =>
          rw [Fields.merge_of_none rfl hStray]
          constructor
          · rintro ⟨error, hError⟩
            cases hError
          · rintro (hMap | ⟨source, hSource, hOther⟩)
            · cases hMap
            · have hTypes := Merging.stray?_eq_none_iff.mp hStray
              exact absurd (hTypes source hSource) hOther
      | some source =>
          rw [Fields.merge_of_stray hStray]
          have hOther : source.typeName? ≠ (object fields).typeName? := by
            simpa using List.find?_some hStray
          exact ⟨fun _ => .inr
            ⟨source, List.mem_of_find?_eq_some hStray, hOther⟩,
            fun _ => ⟨_, rfl⟩⟩
  | _ => exact ⟨fun _ => .inl rfl, fun _ => ⟨_, rfl⟩⟩

/-
  Merging reconciles by the last writer. It fails exactly if the target
  is no map or a source is of another type, and then the message names
  the types of the target and of the first such source. Otherwise each
  key has the value that it was given last; and in an object, each name
  stands as the last source with such a property tells.
-/
theorem merge_last_writer
    (target : Schema)
    (sources : List Schema)
    (method : String)
    (span : Span) :
    ((∃ error, target.merge sources method span = .error error) ↔
        target.isMap = false ∨
          ∃ source ∈ sources, source.typeName? ≠ target.typeName?) ∧
      (∀ source, target.isMap = true →
        stray? target.typeName? sources = some source →
          ∃ error, target.merge sources method span = .error error ∧
            error.span = span ∧
            error.cause.message =
              "You can extend only same type schemas: " ++
                target.typeLabel ++ " and " ++ source.typeLabel) ∧
      ∀ schema, target.merge sources method span = .ok schema →
        ∃ fields merged, target = .object fields ∧
          schema = .object merged ∧
          Fields.Overwritten (target.typeName? == some "object") fields
            sources merged ∧
          (target.typeName? = some "object" →
            Fields.Restated fields sources merged) := by
  refine ⟨merge_eq_error_iff, ?_, ?_⟩
  · intro source hMap hStray
    cases target with
    | object fields =>
        rw [merge_object, Fields.merge_of_stray hStray]
        exact ⟨_, rfl, rfl, rfl⟩
    | _ => cases hMap
  · intro schema hMerges
    cases target with
    | object fields =>
        cases hStray : stray? (object fields).typeName? sources with
        | some source =>
            rw [merge_object, Fields.merge_of_stray hStray] at hMerges
            cases hMerges
        | none =>
            rw [merge_object, Fields.merge_of_none rfl hStray] at hMerges
            cases hMerges
            refine ⟨fields, _, rfl, rfl,
              Merging.overwritten_result _ _, ?_⟩
            intro hType
            rw [hType]
            exact Merging.restated_result fields
    | _ => cases hMerges

/- An object that requires both of its properties. -/
def pairSchema : Schema :=
  let text : Schema := .object (.single "type" (.string "string"))
  .object
    ((Fields.ofProperties ["a", "b"]
      (.of [("a", text), ("b", text)])).insertFirst
        "title" (.string "Pair"))

/- A source that takes `a` away, and another one that makes `b` optional. -/
def pairChanges : List Schema :=
  let integer : Schema := .object (.single "type" (.string "integer"))
  [.object (Fields.ofProperties ["c"]
      (.of [("a", .removal {}), ("b", .null), ("c", .bool true)])),
    .object
      ((Fields.ofProperties [] (.single "b" integer)).insertFirst
        "title" (.string "Change"))]

/- The second source counts for `b`, and no source for the title. -/
theorem merge_last_writer_pair :
    ∃ merged : Fields,
      pairSchema.merge pairChanges "merge" {} = .ok (.object merged) ∧
      merged.property? "a" = none ∧
      merged.property? "b" =
        some (.object (.single "type" (.string "integer"))) ∧
      "b" ∉ Fields.requiredNames merged ∧
      "c" ∈ Fields.requiredNames merged ∧
      merged.get? "title" = some (.string "Pair") := by
  rcases merge_last_writer pairSchema pairChanges "merge" {} with
    ⟨-, -, hMerges⟩
  rcases hMerges _ rfl with
    ⟨fields, merged, hTarget, hMerged, hKeys, hNames⟩
  cases hTarget
  have hRestated := hNames rfl
  have hSecond := hRestated.stated "b" _ _ rfl rfl rfl
  refine ⟨merged, congrArg Except.ok hMerged, ?_, hSecond.1, ?_, ?_,
    hKeys.title⟩
  · exact (hRestated.removed "a" _ _ rfl rfl rfl).1
  · rw [hSecond.2]
    decide
  · rw [(hRestated.stated "c" _ _ rfl rfl rfl).2]
    decide

end Schema

end SchemaLang
