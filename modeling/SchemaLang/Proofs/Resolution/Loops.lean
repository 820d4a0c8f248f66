import SchemaLang.Proofs.Compile.Equations
import SchemaLang.Proofs.Resolution.Simulation

/-
  The loops of the machine do what the recursive functions of the
  compiler do, if their steps do.

  Main declarations:
    * `Machine.simulates_all`
    * `Machine.simulates_tuple` and `Machine.simulates_rest`
    * `Machine.simulates_memberList`
    * `Machine.simulates_literalMembers`
-/

namespace SchemaLang

namespace Machine

variable {compiler : Compiler}
variable {expand : Compile.Expand}
variable {nested : Nested}
variable {scope : Scope}

------------------------------------------------------------
-- Lists Of Expressions
------------------------------------------------------------

theorem spread?_eq_none
    {e : Expr}
    (hPlain : ¬ e.isSpread = true) :
    spread? e = none := by
  unfold spread?
  split
  · exact absurd rfl hPlain
  · rfl

theorem simulates_all
    {es : List Expr}
    (hEach :
      ∀ e ∈ es,
        Simulates scope (nested.compile e)
          (Compile.expr compiler expand e)) :
    Simulates scope (es.mapM nested.compile)
      (Compile.all compiler expand es) := by
  apply Simulates.collectAll (Compile.expr compiler expand) _ _ _ hEach
  · rw [Compile.all]
  · intro e rest
    rw [Compile.all]

theorem simulates_literalAll
    {es : List Expr}
    (hEach :
      ∀ e ∈ es,
        Simulates scope (nested.write e)
          (Compile.literal compiler expand e)) :
    Simulates scope (es.mapM nested.write)
      (Compile.literalAll compiler expand es) := by
  apply Simulates.collectAll (Compile.literal compiler expand) _ _ _
    hEach
  · rw [Compile.literalAll]
  · intro e rest
    rw [Compile.literalAll]

/- The values of properties, taken as they are written. -/
theorem simulates_literalValues
    {members : List Member}
    (hEach :
      ∀ member ∈ members, ∀ value, value? member = some value →
        Simulates scope (nested.write value)
          (Compile.literal compiler expand value)) :
    Simulates scope
      ((members.filterMap value?).mapM nested.write)
      (Compile.literalValues compiler expand members) := by
  apply Simulates.collect (Compile.literal compiler expand) _ _ _ _
    hEach
  · rw [Compile.literalValues]
  · rintro (_ | e) rest hNone
    · cases hNone
    · rw [Compile.literalValues]
  · rintro (_ | e) value rest hSome
    · cases hSome
      rw [Compile.literalValues]
    · cases hSome

/- The cases of a switch. -/
theorem simulates_cases
    {leaves : List Expr}
    (hEach :
      ∀ leaf ∈ leaves, ∀ sides, sides? leaf = some sides →
        Simulates scope (case nested sides.1 sides.2)
          (Compile.case compiler expand sides.1 sides.2)) :
    Simulates scope
      ((leaves.filterMap sides?).mapM fun sides =>
        case nested sides.1 sides.2)
      (Compile.cases compiler expand leaves) := by
  apply Simulates.collect
    (fun sides => Compile.case compiler expand sides.1 sides.2) _ _ _ _
    hEach
  · rw [Compile.cases]
  · intro leaf rest hNone
    rw [Compile.cases]
    rintro op left right note rfl
    cases hNone
  · intro leaf sides rest hSome
    unfold sides? at hSome
    split at hSome
    · cases hSome
      rw [Compile.cases]
    · cases hSome

/- The elements that are no spreads. -/
theorem simulates_tuple
    {elements : List Expr}
    (hEach :
      ∀ e ∈ elements, e.isSpread = false →
        Simulates scope (nested.compile e)
          (Compile.expr compiler expand e)) :
    Simulates scope
      ((elements.filter fun element => !element.isSpread).mapM
        nested.compile)
      (Compile.tuple compiler expand elements) := by
  rw [← List.filterMap_eq_filter]
  apply Simulates.collect (Compile.expr compiler expand)
  · rw [Compile.tuple]
  · intro element rest hNone
    rcases element with ⟨form, note⟩
    cases form <;> simp [Expr.isSpread, Option.guard] at hNone
    rw [Compile.tuple]
  · intro element picked rest hSome
    simp only [Option.guard_eq_some_iff, Bool.not_eq_true'] at hSome
    rw [Compile.tuple, hSome.1]
    rintro argument note rfl
    cases hSome.2
  · intro element hMember picked hSome
    simp only [Option.guard_eq_some_iff, Bool.not_eq_true'] at hSome
    rcases hSome with ⟨rfl, hSpread⟩
    exact hEach element hMember hSpread

/- What is done with the first spread, or without one. -/
theorem simulates_rest {α : Type}
    {elements : List Expr}
    (next : Option Schema → Run α)
    (later : Option Schema → Compile α)
    (hEach :
      ∀ element ∈ elements, ∀ argument,
        spread? element = some argument →
          Simulates scope (nested.compile argument)
            (Compile.expr compiler expand argument))
    (hNext : ∀ result, Simulates scope (next result) (later result)) :
    Simulates scope
      (match elements.findSome? spread? with
        | some argument => do
          let schema ← nested.compile argument
          next (some schema)
        | none => next none)
      (Compile.rest compiler expand elements >>= later) := by
  induction elements with
  | nil =>
      rw [Compile.rest, pure_bind]
      exact hNext none
  | cons element rest ih =>
      by_cases hSpread : element.isSpread = true
      · have hFirst := hEach element (by simp)
        rcases element with ⟨form, note⟩
        cases form <;> simp [Expr.isSpread] at hSpread
        rw [Compile.rest]
        simp only [bind_assoc, pure_bind]
        exact (hFirst _ rfl).bind fun schema => hNext (some schema)
      · have hNone := spread?_eq_none hSpread
        rw [List.findSome?_cons, hNone, Compile.rest]
        · exact ih fun other hOther =>
            hEach other (List.mem_cons_of_mem _ hOther)
        · rintro argument note rfl
          exact hSpread rfl

------------------------------------------------------------
-- Values Passed From Step To Step
------------------------------------------------------------

/- Expressions that are given one name in turn. -/
theorem simulates_definitions
    {es : List Expr}
    (name : String)
    (hEach :
      ∀ e ∈ es,
        Simulates scope (nested.compile e)
          (Compile.expr compiler expand e)) :
    Simulates scope
      (es.foldlM
        (fun _ arg => do
          let schema ← nested.compile arg
          define name schema
          pure schema) (.object .empty))
      (Compile.definitions compiler expand name (.object .empty) es) := by
  apply Simulates.pass
    (fun _ e => do
      let schema ← Compile.expr compiler expand e
      Compile.define name schema
      pure schema)
    (Compile.definitions compiler expand name)
  · intro last
    rw [Compile.definitions]
  · intro last e rest
    rw [Compile.definitions]
    simp only [bind_assoc, pure_bind]
  · intro e hMember last
    refine (hEach e hMember).bind fun schema => ?_
    exact (Simulates.define name schema).bind fun _ => .pure schema

/- Members that are taken as they are written. -/
theorem simulates_literalMembers
    {members : List Member}
    (hEach :
      ∀ member ∈ members, ∀ value, value? member = some value →
        Simulates scope (nested.write value)
          (Compile.literal compiler expand value)) :
    Simulates scope
      (members.foldlM (literalInto nested) .empty)
      (Compile.literalMembers compiler expand .empty members) := by
  apply Simulates.pass (Compile.literalStep compiler expand)
    (Compile.literalMembers compiler expand)
  · intro fields
    rw [Compile.literalMembers]
  · exact Compile.literalMembers_cons
  · rintro (⟨key, computed, value, span, comments⟩ | e) hMember fields
    · refine (Simulates.check _).bind fun name => ?_
      exact (hEach _ hMember value rfl).bind fun schema => .pure _
    · exact .fail _ _

/- Members of an argument, whose values are compiled. -/
theorem simulates_schemaMembers
    {members : List Member}
    (name : String)
    (hEach :
      ∀ member ∈ members, ∀ value, value? member = some value →
        Simulates scope (nested.compile value)
          (Compile.expr compiler expand value)) :
    Simulates scope
      (members.foldlM (schemaInto nested name) .empty)
      (Compile.schemaMembers compiler expand name .empty members) := by
  apply Simulates.pass (Compile.schemaStep compiler expand name)
    (Compile.schemaMembers compiler expand name)
  · intro fields
    rw [Compile.schemaMembers]
  · exact Compile.schemaMembers_cons name
  · rintro (⟨key, computed, value, span, comments⟩ | e) hMember fields
    · refine (Simulates.check _).bind fun key => ?_
      exact (hEach _ hMember value rfl).bind fun schema => .pure _
    · exact .fail _ _

/- The patterns of an object literal. -/
theorem simulates_patternList
    {members : List Member}
    (hEach :
      ∀ member ∈ members, ∀ value, value? member = some value →
        Simulates scope (nested.compile value)
          (Compile.expr compiler expand value)) :
    Simulates scope
      (members.foldlM (patternInto nested) .empty)
      (Compile.patternList compiler expand .empty members) := by
  apply Simulates.pass (Compile.patternStep compiler expand)
    (Compile.patternList compiler expand)
  · intro patterns
    rw [Compile.patternList]
  · exact Compile.patternList_cons
  · rintro (⟨key, computed, value, span, comments⟩ | e) hMember patterns
    · cases key with
      | regex pattern flags =>
          exact (hEach _ hMember value rfl).bind fun schema => .pure _
      | _ => exact .pure patterns
    · exact .pure patterns

------------------------------------------------------------
-- Members Of Object Literals
------------------------------------------------------------

/- The members of an object literal in turn. -/
theorem simulates_memberList
    {members : List Member}
    (hEach :
      ∀ member ∈ members, ∀ previous fields,
        Simulates scope (memberInto compiler nested previous fields member)
          (Compile.memberStep compiler expand previous fields member))
    (previous : Option Member)
    (fields : Fields) :
    Simulates scope
      ((withPrevious previous members).foldlM
        (fun fields step => memberInto compiler nested step.2 fields step.1)
        fields)
      (Compile.memberList compiler expand previous fields members) := by
  induction members generalizing previous fields with
  | nil =>
      rw [Compile.memberList]
      exact .pure fields
  | cons member rest ih =>
      have hZip :
          withPrevious previous (member :: rest) =
            (member, previous) :: withPrevious (some member) rest := rfl
      rw [hZip, List.foldlM_cons, Compile.memberList_cons]
      refine (hEach member (by simp) previous fields).bind
        fun fields => ?_
      exact ih (fun other hOther =>
        hEach other (List.mem_cons_of_mem _ hOther)) (some member) fields

end Machine

end SchemaLang
