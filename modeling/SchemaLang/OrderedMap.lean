/-
  This file defines maps from names to values that keep the order
  in which their names were inserted. No name is in a map twice: a
  row of values can only be built from names that are new to it.

  Key definitions include:
    * `Pairs`
    * `OrderedMap.Row`
    * `OrderedMap`
    * `OrderedMap.of` and `OrderedMap.single`
    * `OrderedMap.get?`
    * `OrderedMap.insert`
    * `OrderedMap.insertFirst`
    * `OrderedMap.erase`
    * `OrderedMap.ofList`
-/

namespace SchemaLang

------------------------------------------------------------
-- Pairs
------------------------------------------------------------

/- Names with values. A name may be there more than once. -/
abbrev Pairs (α : Type) := List (String × α)

namespace Pairs

variable {α : Type}

/- The names of pairs. -/
def names
    (pairs : Pairs α) : List String :=
  pairs.map Prod.fst

/- Whether no name of pairs is there twice. -/
def isDistinct
    (pairs : Pairs α) : Bool :=
  decide pairs.names.Nodup

/- The first value of a name. -/
def get?
    (pairs : Pairs α)
    (key : String) : Option α :=
  match pairs with
  | [] => none
  | (name, value) :: rest =>
    if name = key then some value else get? rest key

/- Give a name a value, in its place or behind all others. -/
def insert
    (pairs : Pairs α)
    (key : String)
    (value : α) : Pairs α :=
  match pairs with
  | [] => [(key, value)]
  | (name, old) :: rest =>
    if name = key then (name, value) :: rest
    else (name, old) :: insert rest key value

/- Take a name and its values away. -/
def erase
    (pairs : Pairs α)
    (key : String) : Pairs α :=
  pairs.filter fun entry => entry.1 != key

theorem nodup_of_isDistinct
    {pairs : Pairs α}
    (hDistinct : pairs.isDistinct = true) :
    pairs.names.Nodup :=
  of_decide_eq_true hDistinct

theorem mem_names_insert
    {pairs : Pairs α}
    {key name : String}
    {value : α}
    (hName : name ∈ names (pairs.insert key value)) :
    name = key ∨ name ∈ names pairs := by
  fun_induction insert pairs key value with
  | case1 => exact .inl (List.mem_singleton.mp hName)
  | case2 old rest => exact .inr hName
  | case3 other old rest hOther ih =>
    rcases List.mem_cons.mp hName with hFirst | hRest
    · exact .inr (hFirst ▸ List.mem_cons_self)
    · exact (ih hRest).imp_right (List.mem_cons_of_mem _)

theorem nodup_insert
    {pairs : Pairs α}
    (hDistinct : (names pairs).Nodup)
    (key : String)
    (value : α) :
    (names (pairs.insert key value)).Nodup := by
  fun_induction insert pairs key value with
  | case1 => exact List.nodup_cons.mpr ⟨List.not_mem_nil, List.nodup_nil⟩
  | case2 old rest => exact hDistinct
  | case3 name old rest hOther ih =>
    have hCons := List.nodup_cons.mp hDistinct
    refine List.nodup_cons.mpr ⟨fun hName => ?_, ih hCons.2⟩
    rcases mem_names_insert hName with hSame | hRest
    · exact hOther hSame
    · exact hCons.1 hRest

theorem nodup_filter
    {pairs : Pairs α}
    (hDistinct : (names pairs).Nodup)
    (keeps : String × α → Bool) :
    (names (pairs.filter keeps)).Nodup :=
  hDistinct.sublist (List.filter_sublist.map Prod.fst)

/- A name is new to pairs from which it was taken away. -/
theorem nodup_cons_erase
    {pairs : Pairs α}
    (hDistinct : (names pairs).Nodup)
    (key : String)
    (value : α) :
    (names ((key, value) :: pairs.erase key)).Nodup := by
  refine List.nodup_cons.mpr ⟨fun hKey => ?_, nodup_filter hDistinct _⟩
  rcases List.mem_map.mp hKey with ⟨entry, hEntry, hSame⟩
  exact absurd hSame (bne_iff_ne.mp (List.mem_filter.mp hEntry).2)

end Pairs

------------------------------------------------------------
-- Maps
------------------------------------------------------------

/- Values in a row. Each has a name that none behind it has. -/
inductive OrderedMap.Row (α : Type) : List String → Type
  | nil : Row α []
  | cons
      {names : List String}
      (name : String)
      (value : α)
      (rest : Row α names)
      (hNew : name ∉ names) : Row α (name :: names)

/- Names with their values, each name once. -/
structure OrderedMap (α : Type) where
  keys : List String
  row : OrderedMap.Row α keys

namespace OrderedMap

variable {α β : Type}

namespace Row

/- The names of a row with their values. -/
def toPairs
    {names : List String} : Row α names → Pairs α
  | nil => []
  | cons name value rest _ => (name, value) :: rest.toPairs

/- The row of pairs whose names are distinct. -/
def ofPairs :
    (pairs : Pairs α) → pairs.names.Nodup → Row α pairs.names
  | [], _ => nil
  | (name, value) :: rest, hDistinct =>
    have hCons := List.nodup_cons.mp hDistinct
    cons name value (ofPairs rest hCons.2) hCons.1

/- Change the values of a row. -/
def mapValues
    (change : α → β)
    {names : List String} : Row α names → Row β names
  | nil => nil
  | cons name value rest hNew =>
    cons name (change value) (rest.mapValues change) hNew

theorem names_toPairs
    {names : List String}
    (row : Row α names) :
    row.toPairs.names = names := by
  induction row with
  | nil => rfl
  | cons name value rest hNew ih => exact congrArg (name :: ·) ih

theorem nodup_names
    {names : List String}
    (row : Row α names) :
    names.Nodup := by
  induction row with
  | nil => exact List.nodup_nil
  | cons name value rest hNew ih => exact List.nodup_cons.mpr ⟨hNew, ih⟩

end Row

/- The entries of a map. -/
def toList
    (map : OrderedMap α) : Pairs α :=
  map.row.toPairs

theorem nodup_toList
    (map : OrderedMap α) :
    map.toList.names.Nodup := by
  unfold toList
  rw [map.row.names_toPairs]
  exact map.row.nodup_names

/- The map of pairs whose names are distinct. -/
def of
    (pairs : Pairs α)
    (hDistinct : pairs.names.Nodup := by
      exact Pairs.nodup_of_isDistinct rfl) :
    OrderedMap α :=
  ⟨pairs.names, Row.ofPairs pairs hDistinct⟩

/- The map of one name. -/
abbrev single
    (key : String)
    (value : α) : OrderedMap α :=
  of [(key, value)]

/- The map without names. -/
def empty : OrderedMap α :=
  ⟨[], .nil⟩

/- The value of a name. -/
def get?
    (map : OrderedMap α)
    (key : String) : Option α :=
  map.toList.get? key

/- Whether a name has a value. -/
def contains
    (map : OrderedMap α)
    (key : String) : Bool :=
  (map.get? key).isSome

/- Give a name a value, in its place or behind all others. -/
def insert
    (map : OrderedMap α)
    (key : String)
    (value : α) : OrderedMap α :=
  of (map.toList.insert key value)
    (Pairs.nodup_insert map.nodup_toList key value)

/- Keep some entries. -/
def filter
    (map : OrderedMap α)
    (keeps : String × α → Bool) : OrderedMap α :=
  of (map.toList.filter keeps)
    (Pairs.nodup_filter map.nodup_toList keeps)

/- Take a name and its value away. -/
def erase
    (map : OrderedMap α)
    (key : String) : OrderedMap α :=
  map.filter fun entry => entry.1 != key

/- Give a name a value in front of all others. -/
def insertFirst
    (map : OrderedMap α)
    (key : String)
    (value : α) : OrderedMap α :=
  of ((key, value) :: map.toList.erase key)
    (Pairs.nodup_cons_erase map.nodup_toList key value)

/- Insert entries one after the other. -/
def insertAll
    (map : OrderedMap α)
    (entries : Pairs α) : OrderedMap α :=
  entries.foldl (fun map entry => map.insert entry.1 entry.2) map

/- The map of entries; the last value of a name counts. -/
def ofList
    (entries : Pairs α) : OrderedMap α :=
  insertAll empty entries

/- Entries and `[]` may be written for their maps. -/
instance : Coe (Pairs α) (OrderedMap α) := ⟨ofList⟩

instance : CoeDep (List β) [] (OrderedMap α) := ⟨empty⟩

/- Change the values of a map. -/
def mapValues
    (change : α → β)
    (map : OrderedMap α) : OrderedMap β :=
  ⟨map.keys, map.row.mapValues change⟩

end OrderedMap

end SchemaLang
