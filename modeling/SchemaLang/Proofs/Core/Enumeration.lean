import SchemaLang.Proofs.Core.Meaning
import SchemaLang.Proofs.Validation.Keywords

/-
  A list of constants is compiled into a schema that accepts
  exactly these constants, however they are grouped.

  Main declarations:
    * `Chain.Constant.Means`
    * `Chain.Listed`
    * `Chain.listed_groups`
    * `Chain.accepts_enumeration`
-/

namespace SchemaLang

------------------------------------------------------------
-- Equality With A Constant
------------------------------------------------------------

namespace Sense

/- A string equals no document but itself. -/
theorem isEqual_string
    (value : String)
    (v : Document) :
    isEqual (.string value) v = true ↔ v = .string value := by
  cases v with
  | string text =>
      simp only [isEqual, Schema.toDocument, Document.equals, pure,
        Except.pure, beq_iff_eq, Document.string.injEq]
      exact eq_comm
  | _ =>
      simp [isEqual, Schema.toDocument, Document.equals, pure,
        Except.pure]

/- A boolean equals no document but itself. -/
theorem isEqual_bool
    (value : Bool)
    (v : Document) :
    isEqual (.bool value) v = true ↔ v = .bool value := by
  cases v with
  | bool other =>
      simp only [isEqual, Schema.toDocument, Document.equals, pure,
        Except.pure, beq_iff_eq, Document.bool.injEq]
      exact eq_comm
  | _ =>
      simp [isEqual, Schema.toDocument, Document.equals, pure,
        Except.pure]

/- A finite number equals the numbers with its value. -/
theorem isEqual_ofBinary64
    {x : Binary64}
    (hFinite : x.isFinite = true)
    (v : Document) :
    isEqual (.ofBinary64 x) v = true ↔ Expr.IsNumber x.value v := by
  rcases Numeral.exists_ofBinary64? hFinite with
    ⟨numeral, hNumeral, hValue⟩
  rw [Schema.ofBinary64, hNumeral]
  cases v with
  | number n =>
      simp only [isEqual, Schema.toDocument, Document.equals, pure,
        Except.pure, beq_iff_eq, Expr.IsNumber, hValue,
        Document.number.injEq, exists_eq_left']
      exact eq_comm
  | _ =>
      simp [isEqual, Schema.toDocument, Document.equals, pure,
        Except.pure, Expr.IsNumber]

end Sense

namespace Chain

/- The documents that a constant stands for. -/
def Constant.Means : Constant → Document → Prop
  | string value => fun v => v = .string value
  | number value => Expr.IsNumber value.value
  | null => fun v => v = .null

/- Whether a constant is no number that documents do not have. -/
def Constant.isFinite : Constant → Bool
  | number value => value.isFinite
  | _ => true

/- The value that a constant is grouped under equals what it means. -/
theorem isEqual_of_grouped?
    {constant : Constant}
    {entry : Group × Schema}
    (hFinite : constant.isFinite = true)
    (hGrouped : constant.grouped? = some entry)
    (v : Document) :
    Sense.isEqual entry.2 v = true ↔ constant.Means v := by
  cases constant with
  | string value =>
      cases hGrouped
      exact Sense.isEqual_string value v
  | number value =>
      cases hGrouped
      exact Sense.isEqual_ofBinary64 hFinite v
  | null => cases hGrouped

/- What a constant means is of the type of its group. -/
theorem hasType_of_grouped?
    {constant : Constant}
    {entry : Group × Schema}
    {v : Document}
    (hGrouped : constant.grouped? = some entry)
    (hMeans : constant.Means v) :
    v.hasType entry.1.type = true := by
  cases constant with
  | string value =>
      cases hGrouped
      rw [show v = .string value from hMeans]
      rfl
  | number value =>
      cases hGrouped
      rcases hMeans with ⟨n, rfl, -⟩
      rfl
  | null => cases hGrouped

------------------------------------------------------------
-- Groups
------------------------------------------------------------

/- Some group holds a value that a document equals. -/
def Listed
    (groups : List (Group × List Schema))
    (v : Document) : Prop :=
  ∃ group ∈ groups, ∃ value ∈ group.2, Sense.isEqual value v = true

/- The values of all groups are of the groups' types. -/
def Typed
    (groups : List (Group × List Schema)) : Prop :=
  ∀ group ∈ groups, ∀ value ∈ group.2, ∀ v,
    Sense.isEqual value v = true → v.hasType group.1.type = true

/- Adding a value lists it besides those that were listed. -/
theorem listed_addTo
    (group : Group)
    (value : Schema)
    (groups : List (Group × List Schema))
    (v : Document) :
    Listed (addTo group value groups) v ↔
      Listed groups v ∨ Sense.isEqual value v = true := by
  fun_induction addTo group value groups with
  | case1 => simp [Listed]
  | case2 values rest =>
      have hAppend :
          (∃ x ∈ values ++ [value], Sense.isEqual x v = true) ↔
            (∃ x ∈ values, Sense.isEqual x v = true) ∨
              Sense.isEqual value v = true := by
        simp [or_and_right, exists_or]
      simp only [Listed, List.mem_cons, exists_eq_or_imp, hAppend]
      exact or_right_comm
  | case3 other values rest hOther ih =>
      simp only [Listed, List.mem_cons, exists_eq_or_imp] at ih ⊢
      rw [ih, or_assoc]

/- Adding a value of the group's type keeps the groups typed. -/
theorem typed_addTo
    {group : Group}
    {value : Schema}
    {groups : List (Group × List Schema)}
    (hTyped : Typed groups)
    (hValue :
      ∀ v, Sense.isEqual value v = true →
        v.hasType group.type = true) :
    Typed (addTo group value groups) := by
  fun_induction addTo group value groups with
  | case1 => simpa [Typed] using hValue
  | case2 values rest =>
      simp only [Typed, List.forall_mem_cons, List.forall_mem_append] at hTyped ⊢
      exact ⟨⟨hTyped.1, by simpa using hValue⟩, hTyped.2⟩
  | case3 other values rest hOther ih =>
      simp only [Typed, List.forall_mem_cons] at hTyped ⊢
      exact ⟨hTyped.1, ih hTyped.2⟩

/-
  Listing constants one after the other lists what they mean, and
  keeps the groups typed.
-/
theorem listed_foldl
    (constants : List Constant)
    (groups : List (Group × List Schema))
    (hFinite : ∀ constant ∈ constants, constant.isFinite = true)
    (hTyped : Typed groups) :
    let after :=
      (constants.filterMap Constant.grouped?).foldl
        (fun groups entry => addTo entry.1 entry.2 groups) groups
    Typed after ∧
      ∀ v, Listed after v ↔
        Listed groups v ∨
          ∃ constant ∈ constants,
            constant ≠ .null ∧ constant.Means v := by
  induction constants generalizing groups with
  | nil => simp [hTyped]
  | cons constant rest ih =>
      have hRest :
          ∀ other ∈ rest, other.isFinite = true := by
        intro other hOther
        exact hFinite other (List.mem_cons_of_mem _ hOther)
      cases hGrouped : constant.grouped? with
      | none =>
          have hNull : constant = .null := by
            cases constant <;> simp [Constant.grouped?] at hGrouped ⊢
          simp only [List.filterMap_cons, hGrouped]
          have hInd := ih groups hRest hTyped
          refine ⟨hInd.1, fun v => ?_⟩
          rw [hInd.2 v]
          simp [hNull]
      | some entry =>
          have hNotNull : constant ≠ .null := by
            intro hNull
            simp [hNull, Constant.grouped?] at hGrouped
          have hMeans :=
            isEqual_of_grouped? (hFinite constant (by simp)) hGrouped
          have hAdded :
              Typed (addTo entry.1 entry.2 groups) := by
            apply typed_addTo hTyped
            intro v hEqual
            exact hasType_of_grouped? hGrouped ((hMeans v).mp hEqual)
          simp only [List.filterMap_cons, hGrouped, List.foldl_cons]
          have hInd := ih _ hRest hAdded
          refine ⟨hInd.1, fun v => ?_⟩
          rw [hInd.2 v, listed_addTo, hMeans v, or_assoc]
          simp [hNotNull]

/- The groups list exactly the constants other than null. -/
theorem listed_groups
    {constants : List Constant}
    (hFinite : ∀ constant ∈ constants, constant.isFinite = true) :
    Typed (groups constants) ∧
      ∀ v, Listed (groups constants) v ↔
        ∃ constant ∈ constants,
          constant ≠ .null ∧ constant.Means v := by
  have hFold :=
    listed_foldl constants [] hFinite (by simp [Typed])
  simpa [groups, Listed] using hFold

------------------------------------------------------------
-- Schemas Of Groups
------------------------------------------------------------

variable (validator : Validator)

theorem accepts_nullSchema
    (v : Document) :
    validator.accepts nullSchema v = true ↔ v = .null := by
  rw [nullSchema, Validator.accepts_type]
  cases v <;> simp [Document.hasType]

theorem accepts_groupSchema
    {group : Group × List Schema}
    (hTyped : Typed [group])
    (v : Document) :
    validator.accepts (groupSchema group) v = true ↔
      Listed [group] v := by
  rw [groupSchema, Validator.accepts_enum, Bool.and_eq_true,
    List.any_eq_true]
  constructor
  · rintro ⟨-, value, hValue, hEqual⟩
    exact ⟨group, by simp, value, hValue, hEqual⟩
  · rintro ⟨other, hOther, value, hValue, hEqual⟩
    rw [List.mem_singleton] at hOther
    subst hOther
    exact ⟨hTyped _ (by simp) value hValue v hEqual,
      value, hValue, hEqual⟩

theorem accepts_branch
    {group : Group × List Schema}
    (hTyped : Typed [group])
    (v : Document) :
    validator.accepts (branch group) v = true ↔
      Listed [group] v := by
  unfold branch
  split
  · rename_i value hValues
    rw [Validator.accepts_const]
    simp [Listed, hValues]
  · exact accepts_groupSchema validator hTyped v

/-
  An enumeration accepts what is listed in its groups, and null if
  that is among the constants.
-/
theorem accepts_enumeration_groups
    {constants : List Constant}
    (hTyped : Typed (groups constants))
    (hNonempty : groups constants = [] → Constant.null ∈ constants)
    (v : Document) :
    validator.accepts (enumeration constants) v = true ↔
      Listed (groups constants) v ∨
        (.null ∈ constants ∧ v = .null) := by
  have hAny :
      constants.any Constant.isNull = true ↔ .null ∈ constants := by
    rw [List.any_eq_true]
    constructor
    · rintro ⟨constant, hMember, hNull⟩
      cases constant with
      | null => exact hMember
      | string => simp [Constant.isNull] at hNull
      | number => simp [Constant.isNull] at hNull
    · intro hMember
      exact ⟨.null, hMember, rfl⟩
  have hBranches :
      ∀ group ∈ groups constants,
        (validator.accepts (branch group) v = true ↔
          Listed [group] v) := by
    intro group hGroup
    apply accepts_branch validator
    intro other hOther
    rw [List.mem_singleton] at hOther
    exact hTyped other (hOther ▸ hGroup)
  unfold enumeration
  simp only
  split
  · rename_i hGroups
    rw [accepts_nullSchema, hGroups]
    simp [Listed, hNonempty hGroups]
  · rename_i group hGroups hNull
    rw [accepts_groupSchema validator (hGroups ▸ hTyped), hGroups]
    have hAbsent : .null ∉ constants := by
      rw [← hAny]
      simp [hNull]
    simp [hAbsent]
  · rename_i hGroups hSingle
    rw [Validator.accepts_anyOf, List.any_append, Bool.or_eq_true,
      List.any_map, List.any_eq_true]
    apply or_congr
    · simp only [Function.comp_apply]
      constructor
      · rintro ⟨group, hGroup, hAccepts⟩
        rcases (hBranches group hGroup).mp hAccepts with
          ⟨other, hOther, hRest⟩
        rw [List.mem_singleton] at hOther
        exact ⟨other, hOther ▸ hGroup, hRest⟩
      · rintro ⟨group, hGroup, hRest⟩
        exact ⟨group, hGroup,
          (hBranches group hGroup).mpr ⟨group, by simp, hRest⟩⟩
    · by_cases hNull : .null ∈ constants
      · simp [hNull, hAny.mpr hNull, accepts_nullSchema]
      · have hNone : constants.any Constant.isNull = false := by
          rw [← Bool.not_eq_true, hAny]
          exact hNull
        simp [hNull, hNone]

/- Every constant is some document. -/
theorem Constant.exists_means
    (constant : Constant) :
    ∃ v, constant.Means v := by
  cases constant with
  | string value => exact ⟨.string value, rfl⟩
  | number value => exact ⟨.number (.real value), _, rfl, rfl⟩
  | null => exact ⟨.null, rfl⟩

/- An enumeration accepts exactly the constants that it lists. -/
theorem accepts_enumeration
    {constants : List Constant}
    (hFinite : ∀ constant ∈ constants, constant.isFinite = true)
    (hNonempty : constants ≠ [])
    (v : Document) :
    validator.accepts (enumeration constants) v = true ↔
      ∃ constant ∈ constants, constant.Means v := by
  rcases listed_groups hFinite with ⟨hTyped, hListed⟩
  have hNull :
      groups constants = [] → Constant.null ∈ constants := by
    intro hGroups
    rcases List.exists_mem_of_ne_nil _ hNonempty with
      ⟨constant, hMember⟩
    by_contra hAbsent
    have hNotNull : constant ≠ .null := by
      intro h
      exact hAbsent (h ▸ hMember)
    rcases constant.exists_means with ⟨w, hMeans⟩
    have hNone := (hListed w).mpr ⟨constant, hMember, hNotNull, hMeans⟩
    rw [hGroups] at hNone
    simp [Listed] at hNone
  rw [accepts_enumeration_groups validator hTyped hNull, hListed]
  constructor
  · rintro (⟨constant, hMember, -, hMeans⟩ | ⟨hMember, rfl⟩)
    · exact ⟨constant, hMember, hMeans⟩
    · exact ⟨.null, hMember, rfl⟩
  · rintro ⟨constant, hMember, hMeans⟩
    by_cases hIsNull : constant = .null
    · subst hIsNull
      exact .inr ⟨hMember, hMeans⟩
    · exact .inl ⟨constant, hMember, hIsNull, hMeans⟩

end Chain

end SchemaLang
