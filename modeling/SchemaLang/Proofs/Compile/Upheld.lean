import SchemaLang.Proofs.Compile.Ensures
import SchemaLang.Proofs.Compile.Members
import SchemaLang.Proofs.Expr.Parts
import SchemaLang.Proofs.Operation.Upholds

/-
  Expressions that are compiled under a standard. Lists of such
  expressions, arrays of them, and calls that have them as arguments
  keep to it, too.

  Main declarations:
    * `Standard.Admits`
    * `Compile.Upheld` and `Compile.AllUpheld`
    * `Compile.ensures_array`
    * `Compile.ensures_run` and `Compile.ensures_call`
-/

namespace SchemaLang

------------------------------------------------------------
-- Expressions That Are Admitted
------------------------------------------------------------

namespace Standard

/-
  A spread brings a description to a place behind other keys, and a
  directive has to keep to the standard.
-/
def AdmitsMember
    (standard : Standard)
    (compiler : Compiler) : Member → Prop
  | .spread _ => standard.descriptions = false
  | .property key _ _ _ _ =>
    ∀ name entry, key.word? = some name →
      Compile.directive? compiler name = some entry →
        standard.Upholds entry.1 entry.2

/-
  An expression may be compiled under a standard, apart from what is
  within it. An object that is taken as written may hold removals, and
  its keys may be in any order.
-/
def Admits
    (standard : Standard)
    (compiler : Compiler) : Expr → Prop
  | ⟨.unary .not ⟨.unary .not ⟨.object _, _⟩, _⟩, _⟩ =>
    standard.removals = true ∧ standard.titles = false ∧
      standard.descriptions = false
  | ⟨.object members, _⟩ =>
    ∀ member ∈ members, standard.AdmitsMember compiler member
  | ⟨.call ⟨.identifier name, _⟩ _, _⟩ =>
    compiler.functions.get? name = none
  | ⟨.call ⟨.member _ property false, _⟩ _, _⟩ =>
    ∀ name method, property.identifier? = some name →
      compiler.methods.get? name = some method →
        standard.Upholds name method
  | _ => True

end Standard

namespace Compile

/- What an expression is compiled to, and what is taken as written. -/
structure Upheld
    (standard : Standard)
    (compiler : Compiler)
    (expand : Expand)
    (fits : Registry → Prop)
    (e : Expr) : Prop where
  admitted : standard.Admits compiler e
  compiled : Ensures fits standard.Met (expr compiler expand e)
  written :
    Ensures fits
      (fun schema => standard.removals = true → standard.Sound schema)
      (literal compiler expand e)

/- So it is for each of some expressions. -/
def AllUpheld
    (standard : Standard)
    (compiler : Compiler)
    (expand : Expand)
    (fits : Registry → Prop)
    (parts : List Expr) : Prop :=
  ∀ part ∈ parts, Upheld standard compiler expand fits part

variable {standard : Standard}
variable {compiler : Compiler}
variable {expand : Expand}
variable {fits : Registry → Prop}
variable {es : List Expr}
variable {members : List Member}

theorem allUpheld_append
    {parts others : List Expr} :
    AllUpheld standard compiler expand fits (parts ++ others) ↔
      AllUpheld standard compiler expand fits parts ∧
        AllUpheld standard compiler expand fits others :=
  List.forall_mem_append

namespace AllUpheld

theorem self
    {e : Expr}
    (hParts : AllUpheld standard compiler expand fits e.parts) :
    Upheld standard compiler expand fits e :=
  hParts e e.self_mem_parts

theorem mono
    {parts others : List Expr}
    (hParts : AllUpheld standard compiler expand fits parts)
    (hSubset : others ⊆ parts) :
    AllUpheld standard compiler expand fits others :=
  fun part hPart => hParts part (hSubset hPart)

/- The value of a property is among the parts of the property. -/
theorem value
    {key : Key}
    {computed : Bool}
    {value : Expr}
    {span : Span}
    {comments : Comments}
    (hParts :
      AllUpheld standard compiler expand fits (Member.partsOfAll members))
    (hMember : .property key computed value span comments ∈ members) :
    AllUpheld standard compiler expand fits value.parts :=
  hParts.mono (Member.parts_value_subset hMember)

/- The argument of a spread is among the parts of the spread. -/
theorem argument
    {argument : Expr}
    {note : Note}
    (hParts :
      AllUpheld standard compiler expand fits
        (Expr.mk (.spread argument) note).parts) :
    AllUpheld standard compiler expand fits argument.parts :=
  hParts.mono (List.subset_cons_self _ _)

end AllUpheld

------------------------------------------------------------
-- Lists Of Expressions
------------------------------------------------------------

theorem ensures_all
    (hParts :
      AllUpheld standard compiler expand fits (Expr.partsOfAll es)) :
    Ensures fits (fun schemas => ∀ schema ∈ schemas, standard.Sound schema)
      (all compiler expand es) := by
  induction es with
  | nil =>
      rw [all]
      exact .pure (by simp)
  | cons e rest ih =>
      rw [Expr.partsOfAll, allUpheld_append] at hParts
      rw [all]
      refine hParts.1.self.compiled.bind fun first hFirst => ?_
      refine (ih hParts.2).bind fun others hOthers => .pure ?_
      exact List.forall_mem_cons.mpr ⟨hFirst.sound, hOthers⟩

theorem ensures_literalAll
    (hParts :
      AllUpheld standard compiler expand fits (Expr.partsOfAll es)) :
    Ensures fits
      (fun schemas => standard.removals = true →
        ∀ schema ∈ schemas, standard.Sound schema)
      (literalAll compiler expand es) := by
  induction es with
  | nil =>
      rw [literalAll]
      exact .pure (by simp)
  | cons e rest ih =>
      rw [Expr.partsOfAll, allUpheld_append] at hParts
      rw [literalAll]
      refine hParts.1.self.written.bind fun first hFirst => ?_
      refine (ih hParts.2).bind fun others hOthers => .pure ?_
      intro hRemovals
      exact List.forall_mem_cons.mpr
        ⟨hFirst hRemovals, hOthers hRemovals⟩

------------------------------------------------------------
-- Arrays
------------------------------------------------------------

/- The elements that are no spreads. -/
theorem ensures_tuple
    (hParts :
      AllUpheld standard compiler expand fits (Expr.partsOfAll es)) :
    Ensures fits (fun schemas => ∀ schema ∈ schemas, standard.Sound schema)
      (tuple compiler expand es) := by
  induction es with
  | nil =>
      rw [tuple]
      exact .pure (by simp)
  | cons e rest ih =>
      rw [Expr.partsOfAll, allUpheld_append] at hParts
      rcases spread_or_other e with ⟨argument, note, rfl⟩ | hPlain
      · rw [tuple]
        exact ih hParts.2
      · rw [tuple]
        · refine hParts.1.self.compiled.bind fun first hFirst => ?_
          refine (ih hParts.2).bind fun items hItems => .pure ?_
          exact List.forall_mem_cons.mpr ⟨hFirst.sound, hItems⟩
        · exact hPlain

/- The first spread. -/
theorem ensures_rest
    (hParts :
      AllUpheld standard compiler expand fits (Expr.partsOfAll es)) :
    Ensures fits
      (fun last => ∀ schema, last = some schema → standard.Sound schema)
      (rest compiler expand es) := by
  induction es with
  | nil =>
      rw [rest]
      refine .pure ?_
      intro schema hNone
      cases hNone
  | cons e others ih =>
      rw [Expr.partsOfAll, allUpheld_append] at hParts
      rcases spread_or_other e with ⟨argument, note, rfl⟩ | hPlain
      · rw [rest]
        refine hParts.1.argument.self.compiled.bind
          fun schema hSchema => .pure ?_
        intro _ hSame
        cases hSame
        exact hSchema.sound
      · rw [rest]
        · exact ih hParts.2
        · exact hPlain

theorem metFields_arrayFields
    (standard : Standard)
    (count : Nat)
    (exact : Bool) :
    standard.MetFields (arrayFields count exact) := by
  apply Standard.met_object.mp
  cases exact with
  | false =>
      apply Standard.met_of_keys ["type"] rfl (by decide)
      simp [arrayFields, Standard.Sound]
  | true =>
      apply Standard.met_of_keys ["type", "minItems", "maxItems"] rfl
        (by decide)
      simp [arrayFields, Standard.Sound]

theorem ensures_array
    (hParts :
      AllUpheld standard compiler expand fits (Expr.partsOfAll es))
    (exact : Bool) :
    Ensures fits standard.Met (array compiler expand es exact) := by
  have hFields := metFields_arrayFields standard es.length exact
  rcases es with _ | ⟨element, _ | ⟨second, more⟩⟩
  · rw [array]
    exact .pure (Standard.met_object.mpr hFields)
  · rw [Expr.partsOfAll, allUpheld_append] at hParts
    rcases spread_or_other element with ⟨argument, note, rfl⟩ | hPlain
    · rw [array]
      cases exact with
      | true => exact .fail _ _
      | false =>
          refine hParts.1.argument.self.compiled.bind
            fun schema hSchema => .pure ?_
          exact Standard.met_object.mpr (hFields.insert
            (Standard.leading_of_not_naming rfl) hSchema.sound)
    · rw [array]
      · refine hParts.1.self.compiled.bind
          fun schema hSchema => .pure ?_
        exact Standard.met_object.mpr (hFields.insert
          (Standard.leading_of_not_naming rfl) hSchema.sound)
      · exact hPlain
  · have hKeys :
        Schema.isNaming (tupleKeys compiler.version).1 = false ∧
          Schema.isNaming (tupleKeys compiler.version).2 = false := by
      cases compiler.version <;> exact ⟨rfl, rfl⟩
    rw [array]
    · cases arrayFault? (element :: second :: more) exact with
      | some error => exact .throw error
      | none =>
          refine (ensures_tuple hParts).bind fun items hItems => ?_
          have hTuple := hFields.insert
            (Standard.leading_of_not_naming hKeys.1)
            (Standard.sound_array.mpr hItems)
          refine (ensures_rest hParts).bind fun last hLast => ?_
          cases last with
          | none => exact .pure (Standard.met_object.mpr hTuple)
          | some schema =>
              exact .pure (Standard.met_object.mpr (hTuple.insert
                (Standard.leading_of_not_naming hKeys.2)
                (hLast schema rfl)))
    all_goals simp

------------------------------------------------------------
-- Members Of Arguments And Of Literals
------------------------------------------------------------

theorem ensures_literalMembers
    (hParts :
      AllUpheld standard compiler expand fits
        (Member.partsOfAll members)) :
    Ensures fits
      (fun fields => standard.removals = true →
        standard.SoundFields fields)
      (literalMembers compiler expand .empty members) := by
  refine Ensures.pass (literalStep compiler expand) ?_ literalMembers_cons
    ?_ fun _ => .empty
  · intro fields
    rw [literalMembers]
  · intro member hMember fields hFields
    cases member with
    | property key computed value span comments =>
        refine .checked fun name _ => ?_
        refine (hParts.value hMember).self.written.bind
          fun schema hSchema => .pure ?_
        intro hRemovals
        exact (hFields hRemovals).insert name (hSchema hRemovals)
    | spread e => exact .fail _ _

theorem ensures_schemaMembers
    (hParts :
      AllUpheld standard compiler expand fits
        (Member.partsOfAll members))
    (name : String) :
    Ensures fits standard.SoundFields
      (schemaMembers compiler expand name .empty members) := by
  refine Ensures.pass (schemaStep compiler expand name) ?_
    (schemaMembers_cons name) ?_ .empty
  · intro fields
    rw [schemaMembers]
  · intro member hMember fields hFields
    cases member with
    | property key computed value span comments =>
        refine .checked fun key _ => ?_
        refine (hParts.value hMember).self.compiled.bind
          fun schema hSchema => .pure ?_
        exact hFields.insert key hSchema.sound
    | spread e => exact .fail _ _

theorem ensures_patternList
    (hParts :
      AllUpheld standard compiler expand fits
        (Member.partsOfAll members)) :
    Ensures fits standard.SoundFields
      (patternList compiler expand .empty members) := by
  refine Ensures.pass (patternStep compiler expand) ?_ patternList_cons
    ?_ .empty
  · intro patterns
    rw [patternList]
  · intro member hMember patterns hPatterns
    unfold patternStep
    split
    · refine (hParts.value hMember).self.compiled.bind
        fun schema hSchema => .pure ?_
      exact hPatterns.insert _ hSchema.sound
    · exact .pure hPatterns

theorem ensures_literalValues
    (hParts :
      AllUpheld standard compiler expand fits
        (Member.partsOfAll members)) :
    Ensures fits
      (fun schemas => standard.removals = true →
        ∀ schema ∈ schemas, standard.Sound schema)
      (literalValues compiler expand members) := by
  induction members with
  | nil =>
      rw [literalValues]
      exact .pure (by simp)
  | cons member rest ih =>
      have hRest := hParts
      rw [Member.partsOfAll, allUpheld_append] at hRest
      cases member with
      | property key computed value span comments =>
          rw [literalValues]
          have hValue := hParts.value List.mem_cons_self
          refine hValue.self.written.bind fun first hFirst => ?_
          refine (ih hRest.2).bind fun more hMore => .pure ?_
          intro hRemovals
          exact List.forall_mem_cons.mpr
            ⟨hFirst hRemovals, hMore hRemovals⟩
      | spread e =>
          rw [literalValues]
          exact ih hRest.2

------------------------------------------------------------
-- Operations
------------------------------------------------------------

theorem ensures_readArg
    {arg : Expr}
    (hParts : AllUpheld standard compiler expand fits arg.parts)
    (name : String)
    (span : Span)
    (reading : Reading) :
    Ensures fits
      (fun schema => (reading.isWritten = true → standard.removals = true) →
        standard.Sound schema)
      (readArg compiler expand name span reading arg) := by
  have hArg := hParts.self
  have hCompiled :
      Ensures fits
        (fun schema =>
          (reading.isWritten = true → standard.removals = true) →
            standard.Sound schema)
        (expr compiler expand arg) :=
    hArg.compiled.mono fun schema hMet _ => hMet.sound
  rcases arg with ⟨form, note⟩
  cases reading with
  | schema =>
      rw [readArg]
      exact hCompiled
  | literal =>
      rw [readArg]
      exact hArg.written.mono fun schema hSound hWritten =>
        hSound (hWritten rfl)
  | flagOrSchema =>
      cases form with
      | boolean value =>
          rw [readArg]
          exact .pure fun _ => trivial
      | _ =>
          rw [readArg]
          · exact hCompiled
          all_goals simp
  | items =>
      cases form with
      | array elements =>
          rw [readArg]
          refine (ensures_all
            (hParts.mono (List.subset_cons_self _ _))).bind ?_
          intro items hItems
          exact .pure fun _ => Standard.sound_array.mpr hItems
      | _ =>
          rw [readArg]
          · exact hCompiled
          all_goals simp
  | schemaMap =>
      cases form with
      | call callee arguments =>
          rw [expr] at hCompiled
          rw [readArg]
          refine hCompiled.bind fun schema hSchema => ?_
          split
          · exact .pure hSchema
          · exact .throw _
      | object members =>
          rw [readArg]
          refine (ensures_schemaMembers
            (hParts.mono (List.subset_cons_self _ _)) name).bind ?_
          intro fields hFields
          exact .pure fun _ => Standard.sound_object.mpr hFields
      | _ =>
          rw [readArg]
          · exact .throw _
          all_goals simp
  | literalObject =>
      cases form with
      | object members =>
          rw [readArg]
          refine (ensures_literalMembers
            (hParts.mono (List.subset_cons_self _ _))).bind ?_
          intro fields hFields
          exact .pure fun hWritten =>
            Standard.sound_object.mpr (hFields (hWritten rfl))
      | _ =>
          rw [readArg]
          · exact .throw _
          all_goals simp

theorem ensures_entries
    {site : Call}
    (hParts :
      AllUpheld standard compiler expand fits
        (Expr.partsOfAll site.args)) :
    Ensures fits
      (fun entries => standard.removals = true →
        ∀ entry ∈ entries, standard.Sound entry.2)
      (evaluate compiler expand .entries site) := by
  rcases site with ⟨name, args, span⟩
  rcases args with _ | ⟨first, _ | ⟨second, _ | ⟨third, more⟩⟩⟩
  · rw [evaluate]
    · exact .throw _
    all_goals simp
  · rw [Expr.partsOfAll, allUpheld_append] at hParts
    rcases first with ⟨form, note⟩
    cases form with
    | object members =>
        rw [evaluate]
        refine .checked fun keys _ => ?_
        refine (ensures_literalValues
          (hParts.1.mono (List.subset_cons_self _ _))).bind ?_
        intro values hValues
        refine .pure fun hRemovals entry hEntry => ?_
        exact hValues hRemovals entry.2 (List.of_mem_zip hEntry).2
    | _ =>
        rw [evaluate]
        · exact .throw _
        all_goals simp
  · rw [Expr.partsOfAll, Expr.partsOfAll, allUpheld_append,
      allUpheld_append] at hParts
    rw [evaluate]
    refine .checked fun target _ => ?_
    refine hParts.2.1.self.written.bind fun schema hSchema => .pure ?_
    intro hRemovals
    exact List.forall_mem_singleton.mpr (hSchema hRemovals)
  · rw [evaluate]
    · exact .throw _
    all_goals simp

theorem ensures_evaluate
    {site : Call}
    (hParts :
      AllUpheld standard compiler expand fits
        (Expr.partsOfAll site.args))
    {demand : Demand}
    (hDemand : demand ≠ .definitions) :
    Ensures fits
      (fun result =>
        (demand.isWritten = true → standard.removals = true) →
          standard.Given demand result)
      (evaluate compiler expand demand site) := by
  cases demand with
  | nothing =>
      rw [evaluate]
      exact .pure fun _ => trivial
  | entries =>
      exact (ensures_entries hParts).mono fun entries hEntries hWritten =>
        hEntries (hWritten rfl)
  | schemas =>
      rw [evaluate]
      refine .checked fun _ _ => ?_
      exact (ensures_all hParts).mono fun schemas hSchemas _ => hSchemas
  | value reading =>
      rcases site with ⟨name, args, span⟩
      rcases args with _ | ⟨first, _ | ⟨second, more⟩⟩
      · rw [evaluate]
        · exact .throw _
        all_goals simp
      · rw [Expr.partsOfAll, allUpheld_append] at hParts
        rw [evaluate]
        exact ensures_readArg hParts.1 name span reading
      · rw [evaluate]
        · exact .throw _
        all_goals simp
  | definitions => exact absurd rfl hDemand

theorem ensures_run
    (site : Call)
    (hParts :
      AllUpheld standard compiler expand fits
        (Expr.partsOfAll site.args))
    {method : Method}
    (hMethod : standard.Upholds site.name method)
    {receiver : Schema}
    (hReceiver : standard.Met receiver) :
    Ensures fits standard.Met
      (run compiler expand method receiver site) := by
  rw [run]
  refine .checked fun _ _ => ?_
  refine (ensures_evaluate hParts hMethod.silent).bind ?_
  intro result hResult
  refine .check fun answer hAnswer => ?_
  exact hMethod.finish rfl hReceiver (hResult hMethod.written) hAnswer

theorem ensures_call
    {callee : Expr}
    {arguments : List Expr}
    {note : Note}
    (hAdmits : standard.Admits compiler ⟨.call callee arguments, note⟩)
    (hParts :
      AllUpheld standard compiler expand fits
        (Form.call callee arguments).parts) :
    Ensures fits standard.Met
      (call compiler expand callee arguments note) := by
  rw [Form.parts, allUpheld_append] at hParts
  rcases callee with ⟨form, calleeNote⟩
  cases form with
  | identifier name =>
      have hNone : compiler.functions.get? name = none := hAdmits
      rw [call, hNone]
      exact .fail _ _
  | member object property computed =>
      cases computed with
      | false =>
          rw [call]
          split
          · exact .fail _ _
          · rename_i name hName
            have hObject := hParts.1.mono (List.subset_cons_self _ _)
            rw [Form.parts, allUpheld_append] at hObject
            refine hObject.1.self.compiled.bind fun receiver hReceiver => ?_
            cases hGet : compiler.methods.get? name with
            | none => exact .fail _ _
            | some method =>
                have hMethod : standard.Upholds name method :=
                  hAdmits name method hName hGet
                refine (ensures_run ⟨name, arguments, note.span⟩ hParts.2
                  hMethod hReceiver).bind fun result hResult => ?_
                split
                · exact .fail _ _
                · exact .pure hResult.stripNames
      | true =>
          rw [call]
          · exact .fail _ _
          all_goals simp
  | _ =>
      rw [call]
      · exact .fail _ _
      all_goals simp

end Compile

end SchemaLang
