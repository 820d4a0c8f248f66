import SchemaLang.Proofs.Compile.Leaves
import SchemaLang.Proofs.Number.Value
import SchemaLang.Proofs.Schema.Statement

/-
  Literals that a chain lists. They are grouped by their kind, and what
  is made of the groups lists the same literals: none is lost, none is
  listed twice, and those of one kind keep their order. Kinds come in
  the order in which they are first seen, with null behind them.

  Main declarations:
    * `Chain.Group.values` and `Chain.seenGroups`
    * `Chain.Group.shown` and `Chain.Group.listed`
    * `Chain.foldl_addTo`
    * `Chain.groups_eq`
    * `Chain.enumeration_lists_values`
-/

namespace SchemaLang

/- Whether an expression is `null`. -/
def Expr.isNull : Expr → Bool
  | ⟨.null, _⟩ => true
  | _ => false

/- Whether an expression is a string, a finite number or `null`. -/
def Expr.isListable
    (e : Expr) : Bool :=
  e.string?.isSome || e.number?.isSome || e.isNull

/- The number that an expression is, is finite. -/
theorem Expr.isFinite_of_number?
    {e : Expr}
    {x : Binary64}
    (hNumber : e.number? = some x) :
    x.isFinite = true := by
  unfold number? at hNumber
  split at hNumber
  · rw [Option.ite_none_right_eq_some] at hNumber
    rcases hNumber with ⟨hFinite, hValue⟩
    cases hValue
    exact hFinite
  · rw [Option.ite_none_right_eq_some] at hNumber
    rcases hNumber with ⟨hFinite, hValue⟩
    cases hValue
    exact hFinite
  · cases hNumber

namespace Chain

------------------------------------------------------------
-- Literals By Their Kinds
------------------------------------------------------------

namespace Group

/- The value of a literal, if it is of a kind. -/
def value? : Group → Expr → Option Schema
  | string, e => e.string?.map .string
  | number, e => e.number?.map .ofBinary64

/- The values of a kind, in the order of the literals. -/
def values
    (group : Group)
    (leaves : List Expr) : List Schema :=
  leaves.filterMap group.value?

/- The kind of a literal other than null. -/
def of?
    (e : Expr) : Option Group :=
  if e.string?.isSome then some string
  else if e.number?.isSome then some number
  else none

/-
  How the values of a kind are shown. A single value is a constant,
  unless there is no other kind.
-/
def shown
    (alone : Bool)
    (group : Group)
    (values : List Schema) : Schema :=
  if alone ∨ 2 ≤ values.length then
    .object (.of [("type", .string group.type), ("enum", .array values)])
  else .object (.ofList (values.map fun value => ("const", value)))

end Group

/- The kinds of literals other than null, in the order first seen. -/
def seenGroups
    (leaves : List Expr) : List Group :=
  (leaves.filterMap Group.of?).eraseDups

/- How many of the three kinds there are among literals. -/
def kindCount
    (leaves : List Expr) : Nat :=
  (seenGroups leaves).length + if leaves.any Expr.isNull then 1 else 0

/- How literals are listed: kind by kind, with null behind the others. -/
def branches
    (leaves : List Expr) : List Schema :=
  (seenGroups leaves).map (fun group =>
    group.shown (kindCount leaves = 1) (group.values leaves)) ++
      if leaves.any Expr.isNull then [nullSchema] else []

theorem nodup_seenGroups
    (leaves : List Expr) :
    (seenGroups leaves).Nodup :=
  nodup_eraseDups _

/- A number has one kind, and it is not that of strings. -/
theorem string?_of_number?
    {leaf : Expr}
    (hNumber : leaf.number?.isSome = true) :
    leaf.string? = none := by
  rcases leaf with ⟨form, note⟩
  cases form with
  | string value => cases hNumber
  | _ => rfl

/- A literal is of a kind exactly if it has a value of that kind. -/
theorem Group.of?_eq_some_iff
    {group : Group}
    {leaf : Expr} :
    of? leaf = some group ↔ (group.value? leaf).isSome = true := by
  unfold of?
  cases group with
  | string =>
      unfold value?
      rw [Option.isSome_map]
      split
      · rename_i hString
        simp [hString]
      · rename_i hString
        simp [hString]
  | number =>
      unfold value?
      rw [Option.isSome_map]
      cases hNumber : leaf.number?.isSome with
      | true =>
          rw [string?_of_number? hNumber]
          simp
      | false => simp

/- The kinds that are seen are those that have values. -/
theorem mem_seenGroups_iff
    {group : Group}
    {leaves : List Expr} :
    group ∈ seenGroups leaves ↔ group.values leaves ≠ [] := by
  unfold seenGroups Group.values
  rw [List.mem_eraseDups, List.mem_filterMap, ne_eq,
    List.filterMap_eq_nil_iff]
  push Not
  simp only [Group.of?_eq_some_iff, Option.isSome_iff_ne_none]

------------------------------------------------------------
-- Literals And Constants
------------------------------------------------------------

section

variable {leaf : Expr}
variable {constant : Constant}

/- The value of an entry, if it is in a group. -/
def valueIn?
    (group : Group)
    (entry : Group × Schema) : Option Schema :=
  if entry.1 = group then some entry.2 else none

/- A constant has the kind and the value of its literal. -/
structure Stands
    (leaf : Expr)
    (constant : Constant) : Prop where
  group : constant.grouped?.map Prod.fst = Group.of? leaf
  value :
    ∀ group, constant.grouped?.bind (valueIn? group) = group.value? leaf
  null : constant.isNull = leaf.isNull

theorem stands_number
    {value : Binary64}
    (hString : leaf.string? = none)
    (hNumber : leaf.number? = some value)
    (hNull : leaf.isNull = false) :
    Stands leaf (.number value) where
  group := by simp [Constant.grouped?, Group.of?, hString, hNumber]
  value := by
    intro group
    cases group with
    | string =>
        simp [Constant.grouped?, valueIn?, Group.value?, hString]
    | number =>
        simp [Constant.grouped?, valueIn?, Group.value?, hNumber]
  null := hNull.symm

theorem stands_of_of?
    (hOf : Constant.of? leaf = some constant) :
    Stands leaf constant := by
  rcases leaf with ⟨form, note⟩
  cases form with
  | string value =>
      cases hOf
      refine ⟨rfl, fun group => ?_, rfl⟩
      cases group with
      | string => rfl
      | number => rfl
  | null =>
      cases hOf
      refine ⟨rfl, fun group => ?_, rfl⟩
      cases group with
      | string => rfl
      | number => rfl
  | number value =>
      rcases Option.map_eq_some_iff.mp hOf with ⟨value, hNumber, rfl⟩
      exact stands_number rfl hNumber rfl
  | unary op argument =>
      rcases Option.map_eq_some_iff.mp hOf with ⟨value, hNumber, rfl⟩
      exact stands_number rfl hNumber rfl
  | _ => cases hOf

/- The literals that may be listed are those that are constants. -/
theorem isListable_eq
    (leaf : Expr) :
    leaf.isListable = (Constant.of? leaf).isSome := by
  rcases leaf with ⟨form, note⟩
  unfold Expr.isListable Constant.of?
  cases form with
  | number value => simp [Expr.string?, Expr.isNull, Expr.form]
  | unary op argument => simp [Expr.string?, Expr.isNull, Expr.form]
  | _ => rfl

end

------------------------------------------------------------
-- Groups
------------------------------------------------------------

/- The values that entries have in a group. -/
def valuesIn
    (group : Group)
    (entries : List (Group × Schema)) : List Schema :=
  entries.filterMap (valueIn? group)

/-
  Add a value where every group holds some values, and a group that is
  not there yet would hold none.
-/
theorem addTo_map
    {groups : List Group}
    (hDistinct : groups.Nodup)
    {group : Group}
    {held : Group → List Schema}
    (hNone : group ∉ groups → held group = [])
    (value : Schema) :
    addTo group value (groups.map fun other => (other, held other)) =
      (if group ∈ groups then groups else groups ++ [group]).map
        fun other =>
          (other,
            if other = group then held other ++ [value]
            else held other) := by
  induction groups with
  | nil => simp [addTo, hNone]
  | cons first rest ih =>
      rw [List.nodup_cons] at hDistinct
      rw [List.map_cons, addTo]
      by_cases hFirst : first = group
      · subst hFirst
        have hRest :
            (rest.map fun other =>
                (other,
                  if other = first then held other ++ [value]
                  else held other)) =
              rest.map fun other => (other, held other) := by
          apply List.map_congr_left
          intro other hOther
          have hNe : other ≠ first := by
            intro hSame
            exact hDistinct.1 (hSame ▸ hOther)
          rw [if_neg hNe]
        rw [if_pos rfl, if_pos List.mem_cons_self, List.map_cons,
          if_pos rfl, hRest]
      · have hLater :
            group ∈ first :: rest ↔ group ∈ rest := by
          rw [List.mem_cons, or_iff_right (Ne.symm hFirst)]
        rw [hLater] at hNone
        rw [if_neg hFirst, ih hDistinct.2 hNone]
        by_cases hMember : group ∈ rest
        · rw [if_pos hMember, if_pos (hLater.mpr hMember), List.map_cons,
            if_neg hFirst]
        · rw [if_neg hMember, if_neg (mt hLater.mp hMember),
            List.cons_append, List.map_cons, if_neg hFirst]

theorem valuesIn_eq_nil
    {group : Group}
    {entries : List (Group × Schema)}
    (hAbsent : group ∉ (entries.map Prod.fst).eraseDups) :
    valuesIn group entries = [] := by
  rw [List.mem_eraseDups, List.mem_map] at hAbsent
  push Not at hAbsent
  unfold valuesIn
  rw [List.filterMap_eq_nil_iff]
  intro entry hEntry
  exact if_neg (hAbsent entry hEntry)

/-
  Entries that are added in turn are grouped: the groups are in the
  order of their first entries, and each holds the values of its own.
-/
theorem foldl_addTo
    (entries : List (Group × Schema)) :
    entries.foldl (fun groups entry => addTo entry.1 entry.2 groups) [] =
      (entries.map Prod.fst).eraseDups.map fun group =>
        (group, valuesIn group entries) := by
  -- The last entry is added to what stands behind those before it.
  induction entries using List.reverseRecOn with
  | nil => rfl
  | append_singleton entries entry ih =>
      rw [List.foldl_append, List.foldl_cons, List.foldl_nil, ih,
        addTo_map (nodup_eraseDups (entries.map Prod.fst))
          valuesIn_eq_nil, List.map_append,
        List.map_singleton, eraseDups_append_singleton]
      simp only [List.mem_eraseDups]
      apply List.map_congr_left
      intro group hGroup
      unfold valuesIn
      rw [List.filterMap_append]
      by_cases hSame : group = entry.1
      · simp [valueIn?, hSame]
      · simp [valueIn?, hSame, Ne.symm hSame]

section

variable {leaves : List Expr}
variable {constants : List Constant}
variable (hPairs :
  List.Forall₂ (fun leaf constant => Constant.of? leaf = some constant)
    leaves constants)

include hPairs

/- What is taken of constants one by one is taken of their literals. -/
theorem filterMap_constants
    {β : Type}
    {ofConstant : Constant → Option β}
    {ofLeaf : Expr → Option β}
    (hSame :
      ∀ leaf constant, Stands leaf constant →
        ofConstant constant = ofLeaf leaf) :
    constants.filterMap ofConstant = leaves.filterMap ofLeaf := by
  induction hPairs with
  | nil => rfl
  | cons hOf _ ih =>
      rw [List.filterMap_cons, List.filterMap_cons, ih,
        hSame _ _ (stands_of_of? hOf)]

theorem any_isNull_constants :
    constants.any Constant.isNull = leaves.any Expr.isNull := by
  induction hPairs with
  | nil => rfl
  | cons hOf _ ih =>
      rw [List.any_cons, List.any_cons, ih, (stands_of_of? hOf).null]

/- Each group holds the values of its kind, in the order of the text. -/
theorem groups_eq :
    groups constants =
      (seenGroups leaves).map fun group => (group, group.values leaves) := by
  have hGroups :
      (constants.filterMap Constant.grouped?).map Prod.fst =
        leaves.filterMap Group.of? := by
    rw [List.map_filterMap]
    exact filterMap_constants hPairs fun _ _ hStands => hStands.group
  have hValues :
      ∀ group,
        valuesIn group (constants.filterMap Constant.grouped?) =
          group.values leaves := by
    intro group
    unfold valuesIn Group.values
    rw [List.filterMap_filterMap]
    exact filterMap_constants hPairs fun _ _ hStands =>
      hStands.value group
  unfold groups seenGroups
  rw [foldl_addTo, hGroups]
  simp only [hValues]

end

------------------------------------------------------------
-- Shapes Of Enumerations
------------------------------------------------------------

/- The values of a kind beside others. -/
theorem branch_eq_shown
    (group : Group)
    {values : List Schema}
    (hSome : values ≠ []) :
    branch (group, values) = group.shown false values := by
  unfold branch Group.shown
  match values with
  | [] => exact absurd rfl hSome
  | [value] => rfl
  | first :: second :: rest => simp [groupSchema]

theorem groupSchema_eq_shown
    (group : Group)
    (values : List Schema) :
    groupSchema (group, values) = group.shown true values := by
  simp [groupSchema, Group.shown]

/- The branches of a union; any other schema is by itself. -/
def alternatives
    (schema : Schema) : List Schema :=
  match schema.get? "anyOf" with
  | some (.array branches) => branches
  | _ => [schema]

/- Whether a schema is a value of a kind. -/
def Group.holds : Group → Schema → Bool
  | string, .string _ => true
  | number, .number _ => true
  | _, _ => false

/- The values of a kind that an alternative lists. -/
def Group.listedBy
    (group : Group)
    (alternative : Schema) : List Schema :=
  match alternative.get? "enum" with
  | some (.array values) =>
    if alternative.typeName? = some group.type then values else []
  | _ => (alternative.get? "const").toList.filter group.holds

/- The values of a kind that a schema lists. -/
def Group.listed
    (group : Group)
    (schema : Schema) : List Schema :=
  (alternatives schema).flatMap group.listedBy

/- No branch is a union itself. -/
theorem get?_anyOf_of_mem
    {leaves : List Expr}
    {schema : Schema}
    (hMember : schema ∈ branches leaves) :
    schema.get? "anyOf" = none := by
  rcases List.mem_append.mp hMember with hShown | hNull
  · rcases List.mem_map.mp hShown with ⟨group, -, rfl⟩
    unfold Group.shown
    split
    · rfl
    · change OrderedMap.get? _ "anyOf" = none
      rw [OrderedMap.get?_eq_none_iff]
      unfold OrderedMap.ofList
      rw [OrderedMap.mem_keys_insertAll]
      simp [Pairs.names]
  · split at hNull
    · rw [List.mem_singleton.mp hNull]
      rfl
    · cases hNull

section

variable {leaves : List Expr}
variable {constants : List Constant}
variable (hPairs :
  List.Forall₂ (fun leaf constant => Constant.of? leaf = some constant)
    leaves constants)

include hPairs

/- Without any other kind all literals are null. -/
theorem any_isNull_of_seenGroups
    (hNonempty : leaves ≠ [])
    (hSeen : seenGroups leaves = []) :
    leaves.any Expr.isNull = true := by
  cases hPairs with
  | nil => exact absurd rfl hNonempty
  | @cons leaf constant rest others hOf _ =>
      have hStands := stands_of_of? hOf
      have hNone : Group.of? leaf = none := by
        rw [Option.eq_none_iff_forall_ne_some]
        intro group hGroup
        have hMember : group ∈ seenGroups (leaf :: rest) := by
          unfold seenGroups
          rw [List.mem_eraseDups, List.mem_filterMap]
          exact ⟨leaf, List.mem_cons_self, hGroup⟩
        rw [hSeen] at hMember
        cases hMember
      rw [List.any_cons, ← hStands.null]
      rw [← hStands.group] at hNone
      cases constant with
      | null => rfl
      | string value => cases hNone
      | number value => cases hNone

/- One kind stands by itself, and several are branches. -/
theorem enumeration_shape
    (hNonempty : leaves ≠ []) :
    if kindCount leaves = 1 then branches leaves = [enumeration constants]
    else
      enumeration constants =
        .object (.single "anyOf" (.array (branches leaves))) := by
  have hValues :
      ∀ group ∈ seenGroups leaves, group.values leaves ≠ [] :=
    fun group hGroup => mem_seenGroups_iff.mp hGroup
  have hShown :
      (seenGroups leaves).map
          (fun group => branch (group, group.values leaves)) =
        (seenGroups leaves).map fun group =>
          group.shown false (group.values leaves) := by
    apply List.map_congr_left
    intro group hGroup
    exact branch_eq_shown group (hValues group hGroup)
  have hNull := any_isNull_of_seenGroups hPairs hNonempty
  unfold enumeration branches kindCount
  rw [groups_eq hPairs, any_isNull_constants hPairs]
  generalize leaves.any Expr.isNull = hasNull at hNull ⊢
  generalize seenGroups leaves = seen at hShown hNull ⊢
  match seen, hasNull with
  | [], false => cases hNull rfl
  | [], true => simp
  | [group], false => simp [groupSchema_eq_shown]
  | [group], true =>
      have hBranch := List.singleton_inj.mp hShown
      simp [hBranch]
  | first :: second :: rest, hasNull =>
      have hMany :
          ¬ (first :: second :: rest).length +
            (if hasNull then 1 else 0) = 1 := by
        simp only [List.length_cons]
        omega
      rw [if_neg hMany, decide_eq_false hMany, ← hShown]
      simp [Function.comp_def]

/- An enumeration is an alternative of its own, or lists several. -/
theorem alternatives_enumeration
    (hNonempty : leaves ≠ []) :
    alternatives (enumeration constants) = branches leaves ∧
      ((enumeration constants).get? "anyOf" = none ↔
        kindCount leaves = 1) := by
  have hShape := enumeration_shape hPairs hNonempty
  split at hShape
  · rename_i hOne
    have hMember : enumeration constants ∈ branches leaves := by
      rw [hShape]
      exact List.mem_singleton_self _
    have hNone := get?_anyOf_of_mem hMember
    refine ⟨?_, iff_of_true hNone hOne⟩
    unfold alternatives
    rw [hNone, hShape]
  · rename_i hSeveral
    rw [hShape]
    refine ⟨rfl, iff_of_false ?_ hSeveral⟩
    exact Option.some_ne_none _

end

------------------------------------------------------------
-- Values Read Back
------------------------------------------------------------

section

variable {group other : Group}
variable {leaves : List Expr}

/- A value is held by its own kind, and by no other one. -/
theorem holds_of_value?
    {leaf : Expr}
    {value : Schema}
    (hValue : other.value? leaf = some value) :
    group.holds value = decide (other = group) := by
  cases other with
  | string =>
      rcases Option.map_eq_some_iff.mp hValue with ⟨text, -, rfl⟩
      cases group with
      | string => rfl
      | number => rfl
  | number =>
      rcases Option.map_eq_some_iff.mp hValue with ⟨x, hNumber, rfl⟩
      rcases Numeral.exists_ofBinary64? (Expr.isFinite_of_number? hNumber)
        with ⟨numeral, hNumeral, -⟩
      unfold Schema.ofBinary64
      rw [hNumeral]
      cases group with
      | string => rfl
      | number => rfl

/- What is shown of a kind lists the values of this kind only. -/
theorem listedBy_shown
    (hSeen : other ∈ seenGroups leaves)
    (alone : Bool) :
    group.listedBy (other.shown alone (other.values leaves)) =
      if other = group then group.values leaves else [] := by
  have hSome := mem_seenGroups_iff.mp hSeen
  have hHolds :
      ∀ value ∈ other.values leaves,
        group.holds value = decide (other = group) := by
    intro value hValue
    rcases List.mem_filterMap.mp hValue with ⟨leaf, -, hLeaf⟩
    exact holds_of_value? hLeaf
  unfold Group.shown
  split
  · have hType : other.type = group.type ↔ other = group := by
      cases other <;> cases group <;> decide
    change (if some other.type = some group.type then other.values leaves
      else []) = _
    simp only [Option.some.injEq, hType]
    split
    · rename_i hSame
      rw [hSame]
    · rfl
  · rename_i hFew
    push Not at hFew
    have hOne : (other.values leaves).length = 1 := by
      have hPositive := List.length_pos_iff.mpr hSome
      omega
    rcases List.length_eq_one_iff.mp hOne with ⟨value, hValues⟩
    have hValue := hHolds value (by rw [hValues]; exact .head _)
    rw [hValues]
    change [value].filter group.holds = _
    by_cases hSame : other = group
    · rw [if_pos hSame, ← hSame, hValues]
      simp [hValue, hSame]
    · simp [hValue, hSame]

theorem flatMap_ite_of_nodup
    {groups : List Group}
    (hDistinct : groups.Nodup)
    (values : List Schema) :
    (groups.flatMap fun other => if other = group then values else []) =
      if group ∈ groups then values else [] := by
  induction groups with
  | nil => rfl
  | cons first rest ih =>
      rw [List.nodup_cons] at hDistinct
      rw [List.flatMap_cons, ih hDistinct.2]
      by_cases hFirst : first = group
      · subst hFirst
        simp [hDistinct.1]
      · simp [hFirst, Ne.symm hFirst]

/- The branches list the values of each kind, and nothing else. -/
theorem flatMap_listedBy_branches
    (group : Group)
    (leaves : List Expr) :
    (branches leaves).flatMap group.listedBy = group.values leaves := by
  have hNull :
      (if leaves.any Expr.isNull then [nullSchema] else []).flatMap
        group.listedBy = [] := by
    split
    · rfl
    · rfl
  have hShown :
      ((seenGroups leaves).flatMap fun other =>
          group.listedBy
            (other.shown (kindCount leaves = 1) (other.values leaves))) =
        (seenGroups leaves).flatMap fun other =>
          if other = group then group.values leaves else [] := by
    apply List.flatMap_congr
    intro other hOther
    exact listedBy_shown hOther _
  unfold branches
  rw [List.flatMap_append, hNull, List.append_nil, List.flatMap_map, hShown,
    flatMap_ite_of_nodup (nodup_seenGroups leaves)]
  split
  · rfl
  · rename_i hUnseen
    rw [mem_seenGroups_iff, not_not] at hUnseen
    exact hUnseen.symm

end

/-
  Literals of a chain are listed without loss. There is one branch for
  each kind in the order first seen, and one for null behind them. A
  branch shows the values of its kind in the order of the text, and
  they can be read back. A single kind is not wrapped in a union.
-/
theorem enumeration_lists_values
    (leaves : List Expr)
    (hNonempty : leaves ≠ [])
    (hListable : ∀ leaf ∈ leaves, leaf.isListable = true) :
    ∃ constants,
      constants? leaves = some constants ∧
      (∀ group : Group,
        group.listed (enumeration constants) = group.values leaves) ∧
      alternatives (enumeration constants) =
        (seenGroups leaves).map (fun group =>
          group.shown (kindCount leaves = 1) (group.values leaves)) ++
            (if leaves.any Expr.isNull then [nullSchema] else []) ∧
      (∀ group, group ∈ seenGroups leaves ↔ group.values leaves ≠ []) ∧
      ((enumeration constants).get? "anyOf" = none ↔
        kindCount leaves = 1) ∧
      (kindCount leaves ≠ 1 →
        enumeration constants =
          .object
            (.single "anyOf"
              (.array (alternatives (enumeration constants))))) := by
  have hSome : (constants? leaves).isSome = true := by
    rw [isSome_constants?_iff]
    intro leaf hLeaf
    rw [← isListable_eq]
    exact hListable leaf hLeaf
  rcases Option.isSome_iff_exists.mp hSome with ⟨constants, hConstants⟩
  have hPairs := forall₂_of_constants? hConstants
  rcases alternatives_enumeration hPairs hNonempty with
    ⟨hBranches, hWrapped⟩
  have hShape := enumeration_shape hPairs hNonempty
  refine ⟨constants, hConstants, ?_, hBranches, fun _ => mem_seenGroups_iff,
    hWrapped, ?_⟩
  · intro group
    unfold Group.listed
    rw [hBranches, flatMap_listedBy_branches]
  · intro hSeveral
    rw [if_neg hSeveral] at hShape
    rw [hBranches, ← hShape]

/- The literals `null`, `"a"`, `1` and `"b"`. -/
def fourLiterals : List Expr :=
  [⟨.null, {}⟩, ⟨.string "a", {}⟩, ⟨.number (Binary64.ofNat 1), {}⟩,
    ⟨.string "b", {}⟩]

/- Strings are collected, a single number is a constant, null is last. -/
theorem enumeration_lists_values_four :
    (∀ leaf ∈ fourLiterals, leaf.isListable = true) ∧
      ∃ constants,
        constants? fourLiterals = some constants ∧
        Group.string.listed (enumeration constants) =
          [.string "a", .string "b"] ∧
        enumeration constants =
          .object
            (.single "anyOf"
              (.array
                [.object
                    (.of
                      [("type", .string "string"),
                        ("enum", .array [.string "a", .string "b"])]),
                  .object (.single "const" (.number (.integer 1))),
                  nullSchema])) := by
  have hListable : ∀ leaf ∈ fourLiterals, leaf.isListable = true := by
    decide
  rcases enumeration_lists_values fourLiterals (by decide) hListable with
    ⟨constants, hConstants, hListed, hBranches, -, -, hWrapped⟩
  have hSeveral : kindCount fourLiterals ≠ 1 := by decide
  refine ⟨hListable, constants, hConstants, ?_, ?_⟩
  · rw [hListed]
    rfl
  · rw [hWrapped hSeveral, hBranches]
    rfl

end Chain

end SchemaLang
