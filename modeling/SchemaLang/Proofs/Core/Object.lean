import SchemaLang.Proofs.Core.Faithful
import SchemaLang.Proofs.Schema.Properties

/-
  Object literals accept what the last members of their names say.
  While members are compiled in turn, the required names and the
  properties reflect the members read so far.

  Main declarations:
    * `Compile.Reflects`
    * `Compile.Reflects.insert`
    * `Compile.memberList_yields`
    * `Compile.faithful_object`
-/

namespace SchemaLang

/- A description leaves what a schema denotes. -/
theorem Validator.Denotes.describe
    {validator : Validator}
    {schema : Schema}
    {means : Document → Prop}
    (hDenotes : validator.Denotes schema means)
    (comments : List Comment) :
    validator.Denotes (schema.describe comments) means := by
  refine ⟨?_, fun v => ?_⟩
  · rcases schema with _ | _ | _ | _ | _ | fields | _ <;>
      simp [Validator.Denotes, Schema.isMap, Schema.fields?] at hDenotes
    unfold Schema.describe
    split <;> rfl
  · rw [Validator.accepts_describe]
    exact hDenotes.2 v

namespace Compile

variable {compiler : Compiler}
variable {expand : Expand}
variable {validator : Validator}

------------------------------------------------------------
-- Members Read So Far
------------------------------------------------------------

theorem lastEntry?_append
    (done : List Expr.Entry)
    (entry : Expr.Entry)
    (name : String) :
    Expr.lastEntry? (done ++ [entry]) name =
      if entry.name = name then some entry
      else Expr.lastEntry? done name := by
  unfold Expr.lastEntry?
  rw [List.filter_append]
  by_cases hName : entry.name = name
  · simp [hName]
  · simp [hName]

/-
  The names required are those whose last entry is not computed,
  and the properties denote what the last entries say.
-/
structure Reflects
    (validator : Validator)
    (required : List String)
    (properties : Fields)
    (entries : List Expr.Entry) : Prop where
  required_iff :
    ∀ name, name ∈ required ↔
      ∃ entry, Expr.lastEntry? entries name = some entry ∧
        entry.computed = false
  values :
    ∀ name, Option.Rel
      (fun schema (entry : Expr.Entry) =>
        validator.Denotes schema entry.means)
      (properties.get? name) (Expr.lastEntry? entries name)

namespace Reflects

variable {required : List String}
variable {properties : Fields}
variable {done : List Expr.Entry}

theorem nil :
    Reflects validator [] .empty [] where
  required_iff := by simp [Expr.lastEntry?]
  values _ := .none

/- A member decides about its own name, and about no other. -/
theorem insert
    (hReflects : Reflects validator required properties done)
    {schema : Schema}
    (entry : Expr.Entry)
    (hDenotes : validator.Denotes schema entry.means) :
    Reflects validator
      (Reconciled.demand required entry.name !entry.computed)
      (properties.insert entry.name schema) (done ++ [entry]) where
  required_iff name := by
    rw [Reconciled.mem_demand, lastEntry?_append]
    by_cases hName : name = entry.name
    · subst hName
      simp
    · rw [if_neg hName, if_neg (Ne.symm hName)]
      exact hReflects.required_iff name
  values name := by
    rw [OrderedMap.get?_insert, lastEntry?_append]
    by_cases hName : entry.name = name
    · rw [if_pos hName, if_pos hName]
      exact .some hDenotes
    · rw [if_neg hName, if_neg hName]
      exact hReflects.values name

/- A comment on a property decides about nothing. -/
theorem describedAt
    (hReflects : Reflects validator required properties done)
    (name : String)
    (comments : List Comment) :
    Reflects validator required
      (Fields.describedAt properties name comments) done where
  required_iff := hReflects.required_iff
  values key := by
    have hValue := hReflects.values key
    rw [Fields.get?_describedAt]
    revert hValue
    generalize properties.get? key = value
    generalize Expr.lastEntry? done key = entry
    rintro (hDenotes | _)
    · rw [Option.map_some]
      refine .some ?_
      split
      · exact hDenotes.describe comments
      · exact hDenotes
    · exact .none

/- An object schema accepts what the entries that it reflects say. -/
theorem denotes
    (hReflects : Reflects validator required properties done) :
    validator.Denotes
      (.object (Fields.ofProperties required properties))
      (Expr.IsObject done) := by
  refine ⟨rfl, fun v => ?_⟩
  rw [Validator.accepts_ofProperties, Expr.IsObject]
  refine exists_congr fun fields => and_congr_right fun _ => ?_
  apply and_congr
  · constructor
    · intro hAll name entry hLast hComputed
      exact hAll name
        ((hReflects.required_iff name).mpr ⟨entry, hLast, hComputed⟩)
    · intro hAll name hRequired
      rcases (hReflects.required_iff name).mp hRequired with
        ⟨entry, hLast, hComputed⟩
      exact hAll name entry hLast hComputed
  · refine forall₂_congr fun field _ => ?_
    have hValue := hReflects.values field.1
    revert hValue
    generalize properties.get? field.1 = value
    generalize Expr.lastEntry? done field.1 = entry
    rintro (hDenotes | _)
    · simp [hDenotes.2]
    · simp

end Reflects

------------------------------------------------------------
-- Members
------------------------------------------------------------

/- One plain property adds its entry to those reflected. -/
theorem propertyInto_yields
    {key : Key}
    {value : Expr}
    {required : List String}
    {properties : Fields}
    {done : List Expr.Entry}
    (hPlain : key.isPlain = true)
    (hDefined : ¬ value.isUndefined = true)
    (hValue : Faithful compiler expand validator value)
    (hReflects : Reflects validator required properties done)
    (previous : Option Member)
    (computed : Bool)
    (span : Span)
    (comments : Comments) :
    ∃ name required' properties',
      key.name? = some name ∧
        Yields Registry.initial
          (propertyInto compiler expand previous
            (Fields.ofProperties required properties) key computed value
            span comments)
          (Fields.ofProperties required' properties') ∧
        Reflects validator required' properties'
          (done ++ [⟨name, computed, value.Means validator⟩]) := by
  rcases propertyName_of_isPlain compiler hPlain span with
    ⟨name, hName, hProperty, hDirective⟩
  rcases hValue with ⟨schema, hSchema, hDenotes⟩
  rcases Member.describe_ofProperties
      (Reconciled.demand required name !computed) properties schema
      comments previous with ⟨others, own, hDescribe, hOthers⟩
  have hBefore : Reflects validator required others done := by
    rcases hOthers with rfl | ⟨other, first, rfl⟩
    · exact hReflects
    · exact hReflects.describedAt other first
  refine ⟨name, Reconciled.demand required name !computed,
    others.insert name (schema.describe own), hName, ?_,
    hBefore.insert ⟨name, computed, value.Means validator⟩
      (hDenotes.describe own)⟩
  rw [propertyInto]
  · refine (Yields.check hProperty).bind ?_
    rw [hDirective]
    simp only [hDefined, Fields.toggleRequired_ofProperties]
    refine hSchema.bind ?_
    rw [hDescribe]
    simp only [Fields.insertProperty_ofProperties]
    exact Yields.pure _
  · rintro pattern flags rfl
    cases hPlain

/- A property with a plain key whose value is faithful. -/
def IsFaithfulMember
    (compiler : Compiler)
    (expand : Expand)
    (validator : Validator) : Member → Prop
  | .property key _ value _ _ =>
    key.isPlain = true ∧ ¬ value.isUndefined = true ∧
      Faithful compiler expand validator value
  | .spread _ => False

/- The members of a literal are reflected one after the other. -/
theorem memberList_yields
    {members : List Member}
    {required : List String}
    {properties : Fields}
    {done : List Expr.Entry}
    (hMembers :
      ∀ member ∈ members,
        IsFaithfulMember compiler expand validator member)
    (hReflects : Reflects validator required properties done)
    (previous : Option Member) :
    ∃ required' properties',
      Yields Registry.initial
          (memberList compiler expand previous
            (Fields.ofProperties required properties) members)
          (Fields.ofProperties required' properties') ∧
        Reflects validator required' properties'
          (done ++ Expr.entries validator members) := by
  induction members generalizing previous required properties done with
  | nil =>
      rw [memberList, Expr.entries, List.append_nil]
      exact ⟨required, properties, Yields.pure _, hReflects⟩
  | cons member rest ih =>
      have hMember := hMembers member (by simp)
      cases member with
      | spread e => cases hMember
      | property key computed value span comments =>
          rcases hMember with ⟨hPlain, hDefined, hValue⟩
          rcases propertyInto_yields hPlain hDefined hValue hReflects
              previous computed span comments with
            ⟨name, required', properties', hName, hFirst, hAfter⟩
          rcases ih (fun m hm => hMembers m (List.mem_cons_of_mem _ hm))
              hAfter (some (.property key computed value span comments))
            with ⟨required'', properties'', hRest, hLast⟩
          refine ⟨required'', properties'', ?_, ?_⟩
          · rw [memberList]
            exact hFirst.bind hRest
          · rw [Expr.entries, hName]
            simpa using hLast

/- Plain properties have no patterns. -/
theorem any_isPattern_eq_false
    {members : List Member}
    (hMembers :
      ∀ member ∈ members,
        IsFaithfulMember compiler expand validator member) :
    members.any Member.isPattern = false := by
  rw [List.any_eq_false]
  intro member hMember hPattern
  have hFaithful := hMembers member hMember
  unfold Member.isPattern at hPattern
  split at hPattern
  · cases hFaithful.1
  · cases hPattern

theorem faithful_object
    {members : List Member}
    (hMembers :
      ∀ member ∈ members,
        IsFaithfulMember compiler expand validator member)
    (note : Note) :
    Faithful compiler expand validator ⟨.object members, note⟩ := by
  rcases memberList_yields hMembers Reflects.nil none with
    ⟨required, properties, hList, hReflects⟩
  unfold Faithful
  rw [expr, Fields.skeleton_eq, any_isPattern_eq_false hMembers,
    Expr.Means]
  refine ⟨_, hList.bind ((Yields.pure _).bind (Yields.pure _)), ?_⟩
  exact hReflects.denotes.describe _

end Compile

end SchemaLang
