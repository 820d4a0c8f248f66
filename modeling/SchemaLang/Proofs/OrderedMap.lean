import Mathlib.Data.List.Perm.Subperm
import Mathlib.Tactic.Common
import SchemaLang.OrderedMap

/-
  What insertion and mapping do to the values of names. A map is its
  list of entries, and what holds of pairs with distinct names holds
  of it.

  Main declarations:
    * `OrderedMap.ext_toList`
    * `OrderedMap.get?_insert`
    * `OrderedMap.get?_mapValues`
    * `OrderedMap.get?_eq_none_iff`
    * `OrderedMap.contains_iff`
    * `OrderedMap.keys_insert`
    * `OrderedMap.get?_erase`
    * `OrderedMap.get?_eq_some_iff`
    * `Pairs.last?_eq_get?`
    * `OrderedMap.insertAll_insertAll`
    * `OrderedMap.length_ofList_eq_iff`
-/

namespace SchemaLang

variable {α β : Type}

------------------------------------------------------------
-- Pairs
------------------------------------------------------------

namespace Pairs

@[simp] theorem names_nil :
    names ([] : Pairs α) = [] := rfl

@[simp] theorem names_cons
    (name : String)
    (value : α)
    (rest : Pairs α) :
    names ((name, value) :: rest) = name :: names rest := rfl

@[simp] theorem get?_nil
    (key : String) :
    get? ([] : Pairs α) key = none := rfl

@[simp] theorem get?_cons
    (name : String)
    (value : α)
    (rest : Pairs α)
    (key : String) :
    get? ((name, value) :: rest) key =
      if name = key then some value else get? rest key := rfl

@[simp] theorem insert_nil
    (key : String)
    (value : α) :
    insert [] key value = [(key, value)] := rfl

@[simp] theorem insert_cons
    (name : String)
    (old : α)
    (rest : Pairs α)
    (key : String)
    (value : α) :
    insert ((name, old) :: rest) key value =
      if name = key then (name, value) :: rest
      else (name, old) :: insert rest key value := rfl

theorem get?_insert
    (pairs : Pairs α)
    (name key : String)
    (value : α) :
    (pairs.insert name value).get? key =
      if name = key then some value else pairs.get? key := by
  fun_induction insert pairs name value with
  | case1 => simp
  | case2 old rest =>
      by_cases hKey : name = key
      · simp [hKey]
      · simp [hKey]
  | case3 other old rest hOther ih =>
      by_cases hKey : other = key
      · have hName : name ≠ key := by
          intro h
          exact hOther (hKey.trans h.symm)
        simp [hKey, hName]
      · simp [hKey, ih]

theorem mem_of_get?
    {pairs : Pairs α}
    {key : String}
    {value : α}
    (hGet : pairs.get? key = some value) :
    (key, value) ∈ pairs := by
  induction pairs with
  | nil => simp at hGet
  | cons entry rest ih =>
      rcases entry with ⟨name, old⟩
      by_cases hKey : name = key
      · simp only [get?_cons, hKey, if_true, Option.some.injEq] at hGet
        simp [hKey, hGet]
      · simp only [get?_cons, hKey, if_false] at hGet
        exact List.mem_cons_of_mem _ (ih hGet)

theorem get?_eq_none_iff
    {pairs : Pairs α}
    {key : String} :
    pairs.get? key = none ↔ key ∉ pairs.names := by
  induction pairs with
  | nil => simp
  | cons entry rest ih =>
      rcases entry with ⟨name, value⟩
      by_cases hKey : name = key
      · simp [hKey]
      · simp [hKey, Ne.symm hKey, ih]

theorem insert_of_get?_eq_none
    {pairs : Pairs α}
    {key : String}
    (hNone : pairs.get? key = none)
    (value : α) :
    pairs.insert key value = pairs ++ [(key, value)] := by
  fun_induction insert pairs key value with
  | case1 => rfl
  | case2 old rest => simp at hNone
  | case3 name old rest hOther ih =>
      rw [get?_cons, if_neg hOther] at hNone
      rw [ih hNone, List.cons_append]

theorem names_insert_of_mem
    {pairs : Pairs α}
    {key : String}
    (hKey : key ∈ pairs.names)
    (value : α) :
    (pairs.insert key value).names = pairs.names := by
  fun_induction insert pairs key value with
  | case1 => simp at hKey
  | case2 old rest => rfl
  | case3 name old rest hOther ih =>
      have hRest : key ∈ names rest := by
        simpa [Ne.symm hOther] using hKey
      rw [names_cons, names_cons, ih hRest]

/- An entry behind an insertion is the new one or was there before. -/
theorem mem_insert
    {pairs : Pairs α}
    {key : String}
    {value : α}
    {entry : String × α}
    (hEntry : entry ∈ pairs.insert key value) :
    entry = (key, value) ∨ entry ∈ pairs := by
  fun_induction insert pairs key value with
  | case1 => exact .inl (List.mem_singleton.mp hEntry)
  | case2 old rest =>
      exact (List.mem_cons.mp hEntry).imp_right (List.mem_cons_of_mem _)
  | case3 name old rest hOther ih =>
      rcases List.mem_cons.mp hEntry with hFirst | hRest
      · exact .inr (hFirst ▸ List.mem_cons_self)
      · exact (ih hRest).imp_right (List.mem_cons_of_mem _)

theorem get?_filter
    (keeps : String → Bool)
    (pairs : Pairs α)
    (key : String) :
    get? (pairs.filter fun entry => keeps entry.1) key =
      if keeps key then pairs.get? key else none := by
  induction pairs with
  | nil => simp
  | cons entry rest ih =>
      rcases entry with ⟨name, value⟩
      rw [List.filter_cons]
      by_cases hName : name = key
      · subst hName
        by_cases hKeeps : keeps name = true
        · simp [hKeeps]
        · simp [hKeeps, ih]
      · by_cases hKeeps : keeps name = true
        · simp [hKeeps, hName, ih]
        · simp [hKeeps, hName, ih]

theorem erase_of_not_mem
    {pairs : Pairs α}
    {key : String}
    (hAbsent : key ∉ pairs.names) :
    pairs.erase key = pairs := by
  unfold erase
  rw [List.filter_eq_self]
  intro entry hEntry
  rw [bne_iff_ne]
  rintro rfl
  exact hAbsent (List.mem_map_of_mem hEntry)

theorem erase_insert_of_ne
    (pairs : Pairs α)
    {name key : String}
    (hOther : key ≠ name)
    (value : α) :
    (pairs.insert key value).erase name =
      (pairs.erase name).insert key value := by
  fun_induction insert pairs key value with
  | case1 => simp [erase, hOther]
  | case2 old rest => simp [erase, hOther]
  | case3 found old rest hKey ih =>
      unfold erase at ih ⊢
      by_cases hName : found = name
      · simpa [hName] using ih
      · simpa [hName, hKey] using ih

theorem insert_eq_self_iff
    {pairs : Pairs α}
    {key : String}
    {value : α} :
    pairs.insert key value = pairs ↔ pairs.get? key = some value := by
  fun_induction insert pairs key value with
  | case1 => simp
  | case2 old rest => simp [eq_comm]
  | case3 name old rest hName ih => simp [hName, ih]

/- If no name is there twice, the entries are what is found. -/
theorem get?_eq_some_iff
    {pairs : Pairs α}
    (hDistinct : pairs.names.Nodup)
    {key : String}
    {value : α} :
    pairs.get? key = some value ↔ (key, value) ∈ pairs := by
  refine ⟨mem_of_get?, fun hMember => ?_⟩
  induction pairs with
  | nil => cases hMember
  | cons entry rest ih =>
      rcases entry with ⟨name, old⟩
      rw [names_cons, List.nodup_cons] at hDistinct
      rw [get?_cons]
      rcases List.mem_cons.mp hMember with hFirst | hRest
      · cases hFirst
        simp
      · have hOther : name ≠ key := by
          rintro rfl
          exact hDistinct.1 (List.mem_map_of_mem hRest)
        rw [if_neg hOther]
        exact ih hDistinct.2 hRest

/- The value that is given to a name last. -/
def last?
    (entries : Pairs α)
    (key : String) : Option α :=
  (entries.filter fun entry => entry.1 == key).getLast?.map Prod.snd

theorem isSome_last?_iff
    {entries : Pairs α}
    {key : String} :
    (last? entries key).isSome = true ↔ key ∈ entries.names := by
  unfold last? names
  rw [Option.isSome_map, Option.isSome_iff_ne_none, ne_eq,
    List.getLast?_eq_none_iff, List.filter_eq_nil_iff]
  simp

/- If no name is there twice, the only value of a name is the last. -/
theorem last?_eq_get?
    {pairs : Pairs α}
    (hDistinct : pairs.names.Nodup)
    (key : String) :
    last? pairs key = pairs.get? key := by
  unfold last?
  induction pairs with
  | nil => rfl
  | cons entry rest ih =>
      rcases entry with ⟨name, value⟩
      rw [names_cons, List.nodup_cons] at hDistinct
      rw [List.filter_cons, get?_cons]
      by_cases hName : name = key
      · have hNone : get? rest key = none :=
          get?_eq_none_iff.mpr (hName ▸ hDistinct.1)
        rw [← ih hDistinct.2, Option.map_eq_none_iff,
          List.getLast?_eq_none_iff] at hNone
        rw [if_pos (beq_iff_eq.mpr hName), if_pos hName, hNone]
        rfl
      · rw [if_neg (by simpa using hName), if_neg hName]
        exact ih hDistinct.2

/- Entries that are passed over say nothing about a name. -/
theorem last?_filter
    (keeps : String → Bool)
    (entries : Pairs α)
    (key : String) :
    last? (entries.filter fun entry => keeps entry.1) key =
      if keeps key then last? entries key else none := by
  unfold last?
  rw [List.filter_filter]
  split
  · rename_i hKeeps
    congr 2
    apply List.filter_congr
    intro entry _
    by_cases hKey : entry.1 = key
    · simp [hKey, hKeeps]
    · simp [hKey]
  · rename_i hKeeps
    have hNil :
        (entries.filter fun entry => entry.1 == key && keeps entry.1) = [] := by
      apply List.filter_eq_nil_iff.mpr
      intro entry _
      by_cases hKey : entry.1 = key
      · simpa [hKey] using hKeeps
      · simp [hKey]
    rw [hNil]
    rfl

theorem insert_insert
    (pairs : Pairs α)
    (key : String)
    (first second : α) :
    (pairs.insert key first).insert key second = pairs.insert key second := by
  fun_induction insert pairs key first with
  | case1 => simp
  | case2 old rest => simp
  | case3 name old rest hOther ih => simp [hOther, ih]

theorem insert_comm_of_mem
    {pairs : Pairs α}
    {key other : String}
    (hKey : key ∈ pairs.names)
    (hOther : key ≠ other)
    (value new : α) :
    (pairs.insert key value).insert other new =
      (pairs.insert other new).insert key value := by
  induction pairs with
  | nil => simp at hKey
  | cons entry rest ih =>
      rcases entry with ⟨name, old⟩
      by_cases hName : name = key
      · simp [hName, hOther]
      · have hRest : key ∈ names rest := by
          simpa [Ne.symm hName] using hKey
        by_cases hSame : name = other
        · simp [hSame, Ne.symm hOther]
        · simp [hName, hSame, ih hRest]

end Pairs

------------------------------------------------------------
-- Maps And Their Entries
------------------------------------------------------------

namespace OrderedMap

theorem Row.toPairs_ofPairs
    (pairs : Pairs α)
    (hDistinct : pairs.names.Nodup) :
    (ofPairs pairs hDistinct).toPairs = pairs := by
  induction pairs with
  | nil => rfl
  | cons entry rest ih => exact congrArg (entry :: ·) (ih _)

theorem Row.eq_of_toPairs
    {names : List String}
    {row row' : Row α names}
    (hPairs : row.toPairs = row'.toPairs) :
    row = row' := by
  induction row with
  | nil =>
      cases row'
      rfl
  | cons name value rest hNew ih =>
      cases row' with
      | cons _ value' rest' _ =>
          obtain ⟨hFirst, hRest⟩ := List.cons.inj hPairs
          rw [ih hRest, (Prod.mk.inj hFirst).2]

theorem Row.toPairs_mapValues
    (change : α → β)
    {names : List String}
    (row : Row α names) :
    (row.mapValues change).toPairs =
      row.toPairs.map fun entry => (entry.1, change entry.2) := by
  induction row with
  | nil => rfl
  | cons name value rest hNew ih => exact congrArg (_ :: ·) ih

theorem Row.sizeOf_lt_of_mem
    [SizeOf α]
    {names : List String}
    {row : Row α names}
    {entry : String × α}
    (hEntry : entry ∈ row.toPairs) :
    sizeOf entry.2 < sizeOf row := by
  induction row with
  | nil => cases hEntry
  | cons name value rest hNew ih =>
      rw [Row.cons.sizeOf_spec]
      rcases List.mem_cons.mp hEntry with rfl | hRest
      · dsimp only
        omega
      · have hLess := ih hRest
        omega

/- The values of a map are smaller than the map. -/
theorem sizeOf_lt_of_mem
    [SizeOf α]
    {map : OrderedMap α}
    {entry : String × α}
    (hEntry : entry ∈ map.toList) :
    sizeOf entry.2 < sizeOf map := by
  have hRow := Row.sizeOf_lt_of_mem hEntry
  rw [OrderedMap.mk.sizeOf_spec]
  omega

/- A map is its entries. -/
theorem ext_toList
    {map map' : OrderedMap α}
    (hEntries : map.toList = map'.toList) :
    map = map' := by
  rcases map with ⟨keys, row⟩
  rcases map' with ⟨keys', row'⟩
  obtain rfl : keys = keys' := by
    rw [← row.names_toPairs, ← row'.names_toPairs]
    exact congrArg Pairs.names hEntries
  exact congrArg _ (Row.eq_of_toPairs hEntries)

theorem toList_inj
    {map map' : OrderedMap α} :
    map.toList = map'.toList ↔ map = map' :=
  ⟨ext_toList, congrArg toList⟩

@[simp] theorem names_toList
    (map : OrderedMap α) :
    map.toList.names = map.keys :=
  map.row.names_toPairs

theorem nodup_keys
    (map : OrderedMap α) :
    map.keys.Nodup :=
  map.row.nodup_names

@[simp] theorem toList_of
    (pairs : Pairs α)
    (hDistinct : pairs.names.Nodup) :
    (of pairs hDistinct).toList = pairs :=
  Row.toPairs_ofPairs pairs hDistinct

@[simp] theorem of_inj
    {pairs pairs' : Pairs α}
    {hDistinct : pairs.names.Nodup}
    {hDistinct' : pairs'.names.Nodup} :
    of pairs hDistinct = of pairs' hDistinct' ↔ pairs = pairs' := by
  rw [← toList_inj, toList_of, toList_of]

@[simp] theorem toList_empty :
    (empty : OrderedMap α).toList = [] := rfl

@[simp] theorem keys_of
    (pairs : Pairs α)
    (hDistinct : pairs.names.Nodup) :
    (of pairs hDistinct).keys = pairs.names := rfl

@[simp] theorem keys_empty :
    (empty : OrderedMap α).keys = [] := rfl

theorem toList_insert
    (map : OrderedMap α)
    (key : String)
    (value : α) :
    (map.insert key value).toList = map.toList.insert key value :=
  toList_of _ _

theorem toList_filter
    (map : OrderedMap α)
    (keeps : String × α → Bool) :
    (map.filter keeps).toList = map.toList.filter keeps :=
  toList_of _ _

theorem toList_erase
    (map : OrderedMap α)
    (key : String) :
    (map.erase key).toList = map.toList.erase key :=
  toList_of _ _

@[simp] theorem toList_mapValues
    (change : α → β)
    (map : OrderedMap α) :
    (map.mapValues change).toList =
      map.toList.map fun entry => (entry.1, change entry.2) :=
  Row.toPairs_mapValues change map.row

@[simp] theorem keys_mapValues
    (change : α → β)
    (map : OrderedMap α) :
    (map.mapValues change).keys = map.keys := rfl

------------------------------------------------------------
-- Values
------------------------------------------------------------

@[simp] theorem get?_of
    (pairs : Pairs α)
    (hDistinct : pairs.names.Nodup)
    (key : String) :
    (of pairs hDistinct).get? key = pairs.get? key := by
  rw [get?, toList_of]

@[simp] theorem get?_empty
    (key : String) :
    (empty : OrderedMap α).get? key = none := rfl

/- The name that is inserted gets the value, the others keep theirs. -/
theorem get?_insert
    (map : OrderedMap α)
    (name key : String)
    (value : α) :
    (map.insert name value).get? key =
      if name = key then some value else map.get? key := by
  rw [get?, toList_insert, Pairs.get?_insert]
  rfl

/- A change of all values changes the value that is found. -/
theorem get?_mapValues
    (change : α → β)
    (map : OrderedMap α)
    (key : String) :
    (map.mapValues change).get? key = (map.get? key).map change := by
  unfold get?
  rw [toList_mapValues]
  induction map.toList with
  | nil => rfl
  | cons entry rest ih =>
      rcases entry with ⟨name, value⟩
      by_cases hKey : name = key
      · simp [hKey]
      · simp [hKey, ih]

/- The entries are what is found. -/
theorem get?_eq_some_iff
    {map : OrderedMap α}
    {key : String}
    {value : α} :
    map.get? key = some value ↔ (key, value) ∈ map.toList :=
  Pairs.get?_eq_some_iff map.nodup_toList

theorem mem_of_get?
    {map : OrderedMap α}
    {key : String}
    {value : α}
    (hGet : map.get? key = some value) :
    (key, value) ∈ map.toList :=
  Pairs.mem_of_get? hGet

/- A name that has a value is a key. -/
theorem mem_keys_of_get?
    {map : OrderedMap α}
    {key : String}
    {value : α}
    (hGet : map.get? key = some value) :
    key ∈ map.keys := by
  rw [← names_toList]
  exact List.mem_map_of_mem (mem_of_get? hGet)

theorem exists_of_mem_keys
    {map : OrderedMap α}
    {key : String}
    (hKey : key ∈ map.keys) :
    ∃ value, (key, value) ∈ map.toList := by
  rw [← names_toList] at hKey
  rcases List.mem_map.mp hKey with ⟨entry, hEntry, rfl⟩
  exact ⟨entry.2, hEntry⟩

theorem get?_eq_none_iff
    {map : OrderedMap α}
    {key : String} :
    map.get? key = none ↔ key ∉ map.keys := by
  rw [get?, Pairs.get?_eq_none_iff, names_toList]

/- A map contains its keys. -/
theorem contains_iff
    {map : OrderedMap α}
    {key : String} :
    map.contains key = true ↔ key ∈ map.keys := by
  unfold contains
  rw [Option.isSome_iff_ne_none, ne_eq, get?_eq_none_iff, not_not]

/- A name that has no value yet is inserted behind all others. -/
theorem insert_of_get?_eq_none
    {map : OrderedMap α}
    {key : String}
    (hNone : map.get? key = none)
    (value : α) :
    (map.insert key value).toList = map.toList ++ [(key, value)] := by
  rw [toList_insert, Pairs.insert_of_get?_eq_none hNone]

/- A name that has a value keeps its place. -/
theorem keys_insert_of_mem
    {map : OrderedMap α}
    {key : String}
    (hKey : key ∈ map.keys)
    (value : α) :
    (map.insert key value).keys = map.keys := by
  rw [← names_toList] at hKey
  rw [← names_toList, toList_insert, Pairs.names_insert_of_mem hKey,
    names_toList]

theorem keys_insert
    (map : OrderedMap α)
    (key : String)
    (value : α) :
    (map.insert key value).keys =
      if key ∈ map.keys then map.keys else map.keys ++ [key] := by
  split
  · rename_i hKey
    exact keys_insert_of_mem hKey value
  · rename_i hKey
    rw [← names_toList,
      insert_of_get?_eq_none (get?_eq_none_iff.mpr hKey)]
    simp [Pairs.names, ← names_toList]

/- An entry behind an insertion is the new one or was there before. -/
theorem mem_insert
    {map : OrderedMap α}
    {key : String}
    {value : α}
    {entry : String × α}
    (hEntry : entry ∈ (map.insert key value).toList) :
    entry = (key, value) ∨ entry ∈ map.toList := by
  rw [toList_insert] at hEntry
  exact Pairs.mem_insert hEntry

theorem keys_filter_sublist
    (map : OrderedMap α)
    (keeps : String × α → Bool) :
    (map.filter keeps).keys.Sublist map.keys := by
  rw [← names_toList, ← names_toList, toList_filter]
  exact List.filter_sublist.map Prod.fst

theorem keys_filter
    (map : OrderedMap α)
    (keeps : String → Bool) :
    (map.filter fun entry => keeps entry.1).keys =
      map.keys.filter keeps := by
  rw [← names_toList, ← names_toList, toList_filter]
  unfold Pairs.names
  rw [List.filter_map]
  rfl

theorem keys_erase
    (map : OrderedMap α)
    (key : String) :
    (map.erase key).keys = map.keys.filter (· != key) :=
  keys_filter map (· != key)

theorem get?_filter
    (keeps : String → Bool)
    (map : OrderedMap α)
    (key : String) :
    (map.filter fun entry => keeps entry.1).get? key =
      if keeps key then map.get? key else none := by
  rw [get?, toList_filter, Pairs.get?_filter]
  rfl

/- The name that is taken away has no value, the others keep theirs. -/
theorem get?_erase
    (map : OrderedMap α)
    (name key : String) :
    (map.erase name).get? key =
      if name = key then none else map.get? key := by
  unfold erase
  rw [get?_filter (· != name)]
  by_cases hName : name = key
  · simp [hName]
  · simp [hName, Ne.symm hName]

theorem erase_of_not_mem
    {map : OrderedMap α}
    {key : String}
    (hAbsent : key ∉ map.keys) :
    map.erase key = map := by
  apply ext_toList
  rw [toList_erase]
  exact Pairs.erase_of_not_mem (by rwa [names_toList])

/- Another name keeps its place when one is taken away. -/
theorem erase_insert_of_ne
    (map : OrderedMap α)
    {name key : String}
    (hOther : key ≠ name)
    (value : α) :
    (map.insert key value).erase name = (map.erase name).insert key value := by
  apply ext_toList
  rw [toList_erase, toList_insert, toList_insert, toList_erase,
    Pairs.erase_insert_of_ne _ hOther]

/- A new name is put in front, and nothing else is changed. -/
theorem toList_insertFirst
    {map : OrderedMap α}
    {key : String}
    (hAbsent : key ∉ map.keys)
    (value : α) :
    (map.insertFirst key value).toList = (key, value) :: map.toList := by
  unfold insertFirst
  rw [toList_of, Pairs.erase_of_not_mem (by rwa [names_toList])]

theorem get?_insertFirst
    (map : OrderedMap α)
    (name key : String)
    (value : α) :
    (map.insertFirst name value).get? key =
      if name = key then some value else map.get? key := by
  unfold insertFirst
  rw [get?_of, Pairs.get?_cons]
  split
  · rfl
  · rename_i hName
    rw [← toList_erase]
    exact (get?_erase map name key).trans (if_neg hName)

/- Names stay in their order, and a new one comes last. -/
theorem keys_prefix_insert
    (map : OrderedMap α)
    (key : String)
    (value : α) :
    map.keys <+: (map.insert key value).keys := by
  rw [keys_insert]
  split
  · exact List.prefix_refl _
  · exact List.prefix_append _ _

theorem keys_prefix_insertAll
    (map : OrderedMap α)
    (entries : Pairs α) :
    map.keys <+: (map.insertAll entries).keys := by
  unfold insertAll
  induction entries generalizing map with
  | nil => exact List.prefix_refl _
  | cons entry rest ih =>
      exact (keys_prefix_insert map entry.1 entry.2).trans (ih _)

theorem mem_keys_insert
    {map : OrderedMap α}
    {key other : String}
    {value : α} :
    other ∈ (map.insert key value).keys ↔ other = key ∨ other ∈ map.keys := by
  rw [keys_insert]
  split
  · rename_i hKey
    exact ⟨.inr, fun hEither => hEither.elim (fun hSame => hSame ▸ hKey) id⟩
  · rw [List.mem_append, List.mem_singleton, or_comm]

/- Exactly the names of the entries are added. -/
theorem mem_keys_insertAll
    {map : OrderedMap α}
    {entries : Pairs α}
    {key : String} :
    key ∈ (map.insertAll entries).keys ↔
      key ∈ map.keys ∨ key ∈ entries.names := by
  unfold insertAll
  induction entries generalizing map with
  | nil => simp
  | cons entry rest ih =>
      rw [List.foldl_cons, ih, mem_keys_insert, Pairs.names_cons,
        List.mem_cons]
      tauto

/- Of several values for one name the last one counts. -/
theorem get?_insertAll
    (map : OrderedMap α)
    (entries : Pairs α)
    (key : String) :
    (map.insertAll entries).get? key =
      (entries.last? key).or (map.get? key) := by
  unfold insertAll Pairs.last?
  induction entries generalizing map with
  | nil => rfl
  | cons entry rest ih =>
      rw [List.foldl_cons, ih, get?_insert, List.filter_cons]
      by_cases hKey : entry.1 = key
      · rw [if_pos hKey, if_pos (beq_iff_eq.mpr hKey), List.getLast?_cons]
        cases (rest.filter fun entry => entry.1 == key).getLast? with
        | none => rfl
        | some _ => rfl
      · rw [if_neg hKey, if_neg (by simpa using hKey)]

/- A value stays if it is the only one that is given to its name. -/
theorem get?_insertAll_of_forall
    {map : OrderedMap α}
    {entries : Pairs α}
    {key : String}
    {value : α}
    (hGet : map.get? key = some value)
    (hEntries : ∀ entry ∈ entries, entry.1 = key → entry.2 = value) :
    (map.insertAll entries).get? key = some value := by
  unfold insertAll
  induction entries generalizing map with
  | nil => exact hGet
  | cons entry rest ih =>
      rw [List.forall_mem_cons] at hEntries
      refine ih ?_ hEntries.2
      rw [get?_insert]
      split
      · rename_i hKey
        rw [hEntries.1 hKey]
      · exact hGet

/- A map stays as it is exactly if the name has the value already. -/
theorem insert_eq_self_iff
    {map : OrderedMap α}
    {key : String}
    {value : α} :
    map.insert key value = map ↔ map.get? key = some value := by
  rw [← toList_inj, toList_insert, Pairs.insert_eq_self_iff]
  rfl

/- The only value of a name is the last. -/
theorem last?_toList
    (map : OrderedMap α)
    (key : String) :
    map.toList.last? key = map.get? key :=
  Pairs.last?_eq_get? map.nodup_toList key

------------------------------------------------------------
-- Insertions In Turn
------------------------------------------------------------

/- Of two values that are given in turn the second one counts. -/
theorem insert_insert
    (map : OrderedMap α)
    (key : String)
    (first second : α) :
    (map.insert key first).insert key second = map.insert key second := by
  apply ext_toList
  rw [toList_insert, toList_insert, toList_insert, Pairs.insert_insert]

/- A name that has its place may be given a value before or after. -/
theorem insert_comm_of_mem
    {map : OrderedMap α}
    {key other : String}
    (hKey : key ∈ map.keys)
    (hOther : key ≠ other)
    (value new : α) :
    (map.insert key value).insert other new =
      (map.insert other new).insert key value := by
  rw [← names_toList] at hKey
  apply ext_toList
  rw [toList_insert, toList_insert, toList_insert, toList_insert,
    Pairs.insert_comm_of_mem hKey hOther]

theorem insertAll_insert_of_mem
    {map : OrderedMap α}
    {key : String}
    (hKey : key ∈ map.keys)
    {entries : Pairs α}
    (hEntries : key ∉ entries.names)
    (value : α) :
    (map.insert key value).insertAll entries =
      (map.insertAll entries).insert key value := by
  unfold insertAll
  induction entries generalizing map with
  | nil => rfl
  | cons entry rest ih =>
      rw [Pairs.names_cons, List.mem_cons, not_or] at hEntries
      rw [List.foldl_cons, List.foldl_cons,
        insert_comm_of_mem hKey hEntries.1]
      exact ih (mem_keys_insert.mpr (.inr hKey)) hEntries.2

/- An entry may be added to what is inserted, or inserted afterwards. -/
theorem insertAll_insert
    (map given : OrderedMap α)
    (key : String)
    (value : α) :
    map.insertAll (given.insert key value).toList =
      (map.insertAll given.toList).insert key value := by
  have hDistinct := given.nodup_toList
  rw [toList_insert]
  generalize given.toList = pairs at hDistinct ⊢
  fun_induction Pairs.insert pairs key value generalizing map with
  | case1 => rfl
  | case2 old rest =>
      rw [Pairs.names_cons, List.nodup_cons] at hDistinct
      have hPlace : key ∈ (map.insert key old).keys :=
        mem_keys_insert.mpr (.inl rfl)
      have hMoved := insertAll_insert_of_mem hPlace hDistinct.1 value
      rw [insert_insert] at hMoved
      exact hMoved
  | case3 name old rest hOther ih =>
      rw [Pairs.names_cons, List.nodup_cons] at hDistinct
      exact ih (map.insert name old) hDistinct.2

theorem insertAll_insertAll
    (map given : OrderedMap α)
    (entries : Pairs α) :
    map.insertAll (given.insertAll entries).toList =
      (map.insertAll given.toList).insertAll entries := by
  induction entries generalizing given with
  | nil => rfl
  | cons entry rest ih =>
      have hNext := ih (given.insert entry.1 entry.2)
      rw [insertAll_insert map] at hNext
      exact hNext

/- Entries whose names are distinct and new are appended. -/
theorem toList_insertAll_of_nodup
    {map : OrderedMap α}
    {entries : Pairs α}
    (hDistinct : (map.keys ++ entries.names).Nodup) :
    (map.insertAll entries).toList = map.toList ++ entries := by
  unfold insertAll
  induction entries generalizing map with
  | nil => exact (List.append_nil _).symm
  | cons entry rest ih =>
      rcases entry with ⟨name, value⟩
      have hNew : name ∉ map.keys := by
        intro hName
        exact (List.nodup_append.mp hDistinct).2.2 name hName name
          (by simp) rfl
      have hAppended :=
        insert_of_get?_eq_none (get?_eq_none_iff.mpr hNew) value
      rw [List.foldl_cons, ih, hAppended]
      · simp
      · rw [keys_insert, if_neg hNew]
        simpa using hDistinct

theorem toList_ofList_of_nodup
    {entries : Pairs α}
    (hDistinct : entries.names.Nodup) :
    (ofList entries).toList = entries :=
  toList_insertAll_of_nodup hDistinct

@[simp] theorem ofList_toList
    (map : OrderedMap α) :
    ofList map.toList = map :=
  ext_toList (toList_ofList_of_nodup map.nodup_toList)

/- No entry is lost exactly if no name is there twice. -/
theorem length_ofList_eq_iff
    {entries : Pairs α} :
    (ofList entries).keys.length = entries.length ↔
      entries.names.Nodup := by
  constructor
  · intro hLength
    have hSubset : (ofList entries).keys ⊆ entries.names := by
      intro name hName
      simpa using mem_keys_insertAll.mp hName
    have hPerm : (ofList entries).keys.Perm entries.names := by
      apply ((ofList entries).nodup_keys.subperm hSubset).perm_of_length_le
      simp [Pairs.names, hLength]
    exact hPerm.nodup_iff.mp (ofList entries).nodup_keys
  · intro hDistinct
    rw [← names_toList, toList_ofList_of_nodup hDistinct, Pairs.names,
      List.length_map]

end OrderedMap

end SchemaLang
