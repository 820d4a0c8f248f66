import Mathlib.Data.List.Basic
import Mathlib.Data.List.Induction
import SchemaLang.Proofs.Schema.Properties

/-
  What the members of an object literal say about names, one after the
  other. The last statement on a name counts, and a name has its place
  from the first statement since it was taken away.

  Main declarations:
    * `Statement` and `Statement.last?`
    * `Statement.standing` and `Statement.standingNames`
    * `Statement.standingNames_append`
    * `Statement.mem_standingNames`
    * `Statement.Reflected`
-/

namespace SchemaLang

------------------------------------------------------------
-- Distinct Names
------------------------------------------------------------

section

variable {α : Type} [BEq α] [LawfulBEq α]

/- Names are distinct once repetitions are erased. -/
theorem nodup_eraseDups
    (names : List α) :
    names.eraseDups.Nodup := by
  induction hLength : names.length using Nat.strongRecOn
    generalizing names with
  | ind length ih =>
      cases names with
      | nil => exact List.nodup_nil
      | cons name rest =>
          have hLess :
              (rest.filter fun other => !other == name).length < length := by
            have hFilter :=
              List.length_filter_le (fun other => !other == name) rest
            rw [← hLength, List.length_cons]
            omega
          rw [List.eraseDups_cons, List.nodup_cons, List.mem_eraseDups]
          exact ⟨by simp, ih _ hLess _ rfl⟩

/- Repetitions may be erased before or after a choice of names. -/
theorem eraseDups_filter
    (keeps : α → Bool)
    (names : List α) :
    (names.filter keeps).eraseDups = names.eraseDups.filter keeps := by
  induction hLength : names.length using Nat.strongRecOn
    generalizing names with
  | ind length ih =>
      cases names with
      | nil => rfl
      | cons name rest =>
          have hLess :
              (rest.filter fun other => !other == name).length < length := by
            have hFilter :=
              List.length_filter_le (fun other => !other == name) rest
            rw [← hLength, List.length_cons]
            omega
          rw [List.eraseDups_cons, List.filter_cons, List.filter_cons,
            ← ih _ hLess _ rfl, List.filter_comm]
          split
          · rw [List.eraseDups_cons]
          · rename_i hName
            congr 1
            symm
            apply List.filter_eq_self.mpr
            intro other hOther
            have hKept := (List.mem_filter.mp hOther).2
            have hNe : other ≠ name := by
              intro hSame
              exact hName (hSame ▸ hKept)
            simpa using hNe

/- A name that is appended counts if it is new. -/
theorem eraseDups_append_singleton
    [DecidableEq α]
    (names : List α)
    (name : α) :
    (names ++ [name]).eraseDups =
      if name ∈ names then names.eraseDups else names.eraseDups ++ [name] := by
  rw [List.eraseDups_append]
  split
  · rename_i hName
    simp [List.removeAll, hName]
  · rename_i hName
    simp [List.removeAll, hName, List.eraseDups_cons]

end

------------------------------------------------------------
-- Statements
------------------------------------------------------------

/-
  What a member says: the schema that its value is compiled to, or that
  its name is taken away. A computed name is not required.
-/
structure Statement where
  name : String
  computed : Bool
  value : Option Schema

namespace Statement

/- Whether there is a property behind a statement. -/
def isKept
    (statement : Statement) : Bool :=
  statement.value.isSome

/- Whether the property has to be there. -/
def isRequired
    (statement : Statement) : Bool :=
  statement.value.isSome && !statement.computed

/- The last statement on a name. -/
def last?
    (said : List Statement)
    (name : String) : Option Statement :=
  (said.filter fun statement => statement.name == name).getLast?

/- The statements that stand, with all that is said later on the name. -/
def standing
    (stands : Statement → Bool) : List Statement → List Statement
  | [] => []
  | first :: rest =>
    if (first :: rest).all fun other =>
        other.name != first.name || stands other then
      first :: standing stands rest
    else standing stands rest

/- Their names, in the order in which each is stated first. -/
def standingNames
    (stands : Statement → Bool)
    (said : List Statement) : List String :=
  ((standing stands said).map Statement.name).eraseDups

variable {stands : Statement → Bool}

/-
  A statement that stands is added; any other one takes all statements
  on its name away.
-/
theorem standing_append
    (said : List Statement)
    (statement : Statement) :
    standing stands (said ++ [statement]) =
      if stands statement then standing stands said ++ [statement]
      else (standing stands said).filter fun other =>
        other.name != statement.name := by
  induction said with
  | nil =>
      cases hStands : stands statement with
      | true => simp [standing, hStands]
      | false => simp [standing, hStands]
  | cons first rest ih =>
      have hOne :
          ([statement].all fun other =>
            other.name != first.name || stands other) =
            (statement.name != first.name || stands statement) := by
        simp
      rw [List.cons_append, standing, standing, ← List.cons_append,
        List.all_append, hOne, ih]
      generalize ((first :: rest).all fun other =>
        other.name != first.name || stands other) = stays
      cases hStands : stands statement with
      | true => cases stays <;> simp
      | false =>
          -- Now `first` falls exactly if it is on the same name.
          by_cases hName : statement.name = first.name
          · cases stays <;> simp [hName]
          · cases stays <;> simp [hName, Ne.symm hName]

/- What a statement does to the names that stand, in their order. -/
theorem standingNames_append
    (said : List Statement)
    (statement : Statement) :
    standingNames stands (said ++ [statement]) =
      Reconciled.demand (standingNames stands said) statement.name
        (stands statement) := by
  unfold standingNames Reconciled.demand
  rw [standing_append]
  split
  · rw [List.map_append, List.map_singleton, eraseDups_append_singleton]
    simp
  · have hNames :
        ((standing stands said).filter fun other =>
            other.name != statement.name).map Statement.name =
          ((standing stands said).map Statement.name).filter
            (· != statement.name) := by
      rw [List.filter_map]
      rfl
    rw [hNames, eraseDups_filter]
    rfl

theorem last?_append
    (said : List Statement)
    (statement : Statement)
    (name : String) :
    last? (said ++ [statement]) name =
      if statement.name = name then some statement
      else last? said name := by
  unfold last?
  rw [List.filter_append]
  split
  · rename_i hName
    simp [hName]
  · rename_i hName
    simp [hName]

/- A name stands exactly if the last statement on it does. -/
theorem mem_standingNames
    {said : List Statement}
    {name : String} :
    name ∈ standingNames stands said ↔
      ∃ statement,
        last? said name = some statement ∧ stands statement = true := by
  induction said using List.reverseRecOn with
  | nil => simp [standingNames, standing, last?]
  | append_singleton said statement ih =>
      rw [standingNames_append, Reconciled.mem_demand, last?_append]
      by_cases hName : name = statement.name
      · rw [if_pos hName, if_pos hName.symm]
        simp
      · rw [if_neg hName, if_neg (Ne.symm hName)]
        exact ih

theorem nodup_standingNames
    (said : List Statement) :
    (standingNames stands said).Nodup :=
  nodup_eraseDups _

/- If all statements stand, so do all names, each from its first one. -/
theorem standingNames_of_all
    {said : List Statement}
    (hAll : ∀ statement ∈ said, stands statement = true) :
    standingNames stands said =
      (said.map Statement.name).eraseDups := by
  have hStanding : standing stands said = said := by
    induction said with
    | nil => rfl
    | cons first rest ih =>
        have hHere :
            ((first :: rest).all fun other =>
              other.name != first.name || stands other) = true := by
          apply List.all_eq_true.mpr
          intro other hOther
          simp [hAll other hOther]
        rw [standing, if_pos hHere,
          ih (List.forall_mem_cons.mp hAll).2]
  unfold standingNames
  rw [hStanding]

------------------------------------------------------------
-- Properties That Reflect Statements
------------------------------------------------------------

/-
  Required names and properties are what has been said: the names stand
  in their order, and each property has the schema that was stated
  last, perhaps with a description.
-/
structure Reflected
    (said : List Statement)
    (required : List String)
    (properties : Fields) : Prop where
  required : required = standingNames isRequired said
  keys : properties.keys = standingNames isKept said
  values :
    ∀ name statement value,
      last? said name = some statement →
        statement.value = some value →
          ∃ comments,
            properties.get? name = some (value.describe comments)

namespace Reflected

variable {said : List Statement}
variable {required : List String}
variable {properties : Fields}

theorem nil :
    Reflected [] [] .empty where
  required := rfl
  keys := rfl
  values := nofun

/- Another description changes neither names nor stated schemas. -/
theorem describedAt
    (hReflected : Reflected said required properties)
    (name : String)
    (comments : List Comment) :
    Reflected said required
      (Fields.describedAt properties name comments) where
  required := hReflected.required
  keys := by
    rw [← hReflected.keys]
    unfold Fields.describedAt
    split
    · rfl
    · rename_i value hGet
      exact OrderedMap.keys_insert_of_mem
        (OrderedMap.mem_keys_of_get? hGet) _
  values := by
    intro key statement value hLast hValue
    rcases hReflected.values key statement value hLast hValue with
      ⟨own, hGet⟩
    rw [Fields.get?_describedAt, hGet, Option.map_some]
    split
    · exact ⟨_, congrArg some (value.describe_describe own comments)⟩
    · exact ⟨own, rfl⟩

/- A member states a property. -/
theorem stated
    (hReflected : Reflected said required properties)
    (name : String)
    (computed : Bool)
    (schema : Schema)
    (comments : List Comment) :
    Reflected (said ++ [⟨name, computed, some schema⟩])
      (Reconciled.demand required name !computed)
      (properties.insert name (schema.describe comments)) where
  required := by
    rw [standingNames_append, hReflected.required]
    rfl
  keys := by
    rw [standingNames_append, OrderedMap.keys_insert, hReflected.keys]
    simp [Reconciled.demand, isKept]
  values := by
    intro key statement value hLast hValue
    rw [last?_append] at hLast
    rw [OrderedMap.get?_insert]
    split at hLast
    · rename_i hName
      cases hLast
      cases hValue
      exact ⟨comments, if_pos hName⟩
    · rename_i hName
      rw [if_neg hName]
      exact hReflected.values key statement value hLast hValue

/- A member takes a property away. -/
theorem unstated
    (hReflected : Reflected said required properties)
    (name : String)
    (computed : Bool) :
    Reflected (said ++ [⟨name, computed, none⟩])
      (Reconciled.demand required name false) (properties.erase name) where
  required := by
    rw [standingNames_append, hReflected.required]
    rfl
  keys := by
    rw [standingNames_append, OrderedMap.keys_erase, hReflected.keys]
    rfl
  values := by
    intro key statement value hLast hValue
    rw [last?_append] at hLast
    rw [OrderedMap.get?_erase]
    split at hLast
    · cases hLast
      cases hValue
    · rename_i hName
      rw [if_neg hName]
      exact hReflected.values key statement value hLast hValue

/- There is a property exactly if the last statement says so. -/
theorem mem_properties
    (hReflected : Reflected said required properties)
    (name : String) :
    name ∈ properties.keys ↔
      ∃ statement,
        last? said name = some statement ∧ statement.isKept = true := by
  rw [hReflected.keys, mem_standingNames]

/- It has to be there exactly if the last statement says so. -/
theorem mem_required
    (hReflected : Reflected said required properties)
    (name : String) :
    name ∈ required ↔
      ∃ statement,
        last? said name = some statement ∧
          statement.isRequired = true := by
  rw [hReflected.required, mem_standingNames]

theorem nodup_required
    (hReflected : Reflected said required properties) :
    required.Nodup := by
  rw [hReflected.required]
  exact nodup_standingNames said

end Reflected

end Statement

end SchemaLang
