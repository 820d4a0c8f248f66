import SchemaLang.Proofs.Compile.Mirrors
import SchemaLang.Proofs.Compile.Shapes
import SchemaLang.Proofs.Expr.Parts
import SchemaLang.Proofs.Operation.Respects

/-
  Expressions that are alike and are compiled side by side, so that
  the second run mirrors the first. Lists of such expressions, arrays
  of them, and calls that have them as arguments mirror, too.

  Main declarations:
    * `Compile.Paired` and `Compile.AllPaired`
    * `Compile.mirrors_array`
    * `Compile.mirrors_literalMembers`
    * `Compile.mirrors_call`
-/

namespace SchemaLang

namespace Compile

------------------------------------------------------------
-- Expressions Side By Side
------------------------------------------------------------

/- Two expressions are compiled and taken as written side by side. -/
structure Paired
    (compiler : Compiler)
    (expand expand' : Expand)
    (comparison : Comparison)
    (e e' : Expr) : Prop where
  compiled :
    Mirrors comparison comparison.view.Same (expr compiler expand e)
      (expr compiler expand' e')
  written :
    Mirrors comparison comparison.view.Same (literal compiler expand e)
      (literal compiler expand' e')

/- So is each of some expressions, beside whatever is like it. -/
def AllPaired
    (compiler : Compiler)
    (expand expand' : Expand)
    (comparison : Comparison)
    (parts : List Expr) : Prop :=
  ∀ part ∈ parts, ∀ part', comparison.like part part' →
    Paired compiler expand expand' comparison part part'

variable {compiler : Compiler}
variable {expand expand' : Expand}
variable {comparison : Comparison}
variable {es es' : List Expr}
variable {members members' : List Member}

@[simp] theorem allPaired_append
    {parts others : List Expr} :
    AllPaired compiler expand expand' comparison (parts ++ others) ↔
      AllPaired compiler expand expand' comparison parts ∧
        AllPaired compiler expand expand' comparison others :=
  List.forall_mem_append

namespace AllPaired

theorem self
    {e e' : Expr}
    (hParts : AllPaired compiler expand expand' comparison e.parts)
    (hLike : comparison.like e e') :
    Paired compiler expand expand' comparison e e' :=
  hParts e e.self_mem_parts e' hLike

theorem mono
    {parts others : List Expr}
    (hParts : AllPaired compiler expand expand' comparison parts)
    (hSubset : others ⊆ parts) :
    AllPaired compiler expand expand' comparison others :=
  fun part hPart => hParts part (hSubset hPart)

/- The value of a property is among the parts of the property. -/
theorem value
    {key : Key}
    {computed : Bool}
    {value : Expr}
    {span : Span}
    {comments : Comments}
    (hParts :
      AllPaired compiler expand expand' comparison
        (Member.partsOfAll members))
    (hMember : .property key computed value span comments ∈ members) :
    AllPaired compiler expand expand' comparison value.parts :=
  hParts.mono (Member.parts_value_subset hMember)

/- The argument of a spread is among the parts of the spread. -/
theorem argument
    {argument argument' : Expr}
    {note : Note}
    (hParts :
      AllPaired compiler expand expand' comparison
        (Expr.mk (.spread argument) note).parts)
    (hLike : comparison.like argument argument') :
    Paired compiler expand expand' comparison argument argument' := by
  refine hParts argument ?_ argument' hLike
  simp [argument.self_mem_parts]

end AllPaired

------------------------------------------------------------
-- Lists Of Expressions
------------------------------------------------------------

theorem mirrors_all
    (hAll : List.Forall₂ comparison.like es es')
    (hParts :
      AllPaired compiler expand expand' comparison
        (Expr.partsOfAll es)) :
    Mirrors comparison comparison.view.SameItems (all compiler expand es)
      (all compiler expand' es') := by
  induction hAll with
  | nil =>
      rw [all, all]
      exact .pure rfl
  | cons hLike _ ih =>
      rw [Expr.partsOfAll, allPaired_append] at hParts
      rw [all, all]
      refine (hParts.1.self hLike).compiled.bind fun first first' hFirst => ?_
      refine (ih hParts.2).bind fun others others' hOthers => .pure ?_
      exact congrArg₂ List.cons hFirst hOthers

theorem mirrors_literalAll
    (hAll : List.Forall₂ comparison.like es es')
    (hParts :
      AllPaired compiler expand expand' comparison
        (Expr.partsOfAll es)) :
    Mirrors comparison comparison.view.SameItems
      (literalAll compiler expand es)
      (literalAll compiler expand' es') := by
  induction hAll with
  | nil =>
      rw [literalAll, literalAll]
      exact .pure rfl
  | cons hLike _ ih =>
      rw [Expr.partsOfAll, allPaired_append] at hParts
      rw [literalAll, literalAll]
      refine (hParts.1.self hLike).written.bind fun first first' hFirst => ?_
      refine (ih hParts.2).bind fun others others' hOthers => .pure ?_
      exact congrArg₂ List.cons hFirst hOthers

------------------------------------------------------------
-- Arrays
------------------------------------------------------------

/- Two expressions are spreads, or match no pattern of one. -/
theorem spread_or_plain
    {e e' : Expr}
    (hLike : comparison.like e e') :
    (∃ argument argument' note note',
      e = ⟨.spread argument, note⟩ ∧ e' = ⟨.spread argument', note'⟩ ∧
        comparison.like argument argument') ∨
      (∀ argument note, e = ⟨.spread argument, note⟩ → False) ∧
        ∀ argument note, e' = ⟨.spread argument, note⟩ → False := by
  have hForm := comparison.form hLike
  rcases e with ⟨form, note⟩
  rcases e' with ⟨form', note'⟩
  cases hForm with
  | spread hArgument =>
      exact .inl ⟨_, _, note, note', rfl, rfl, hArgument⟩
  | _ => exact .inr ⟨by simp, by simp⟩

/- The elements that are no spreads. -/
theorem mirrors_tuple
    (hAll : List.Forall₂ comparison.like es es')
    (hParts :
      AllPaired compiler expand expand' comparison
        (Expr.partsOfAll es)) :
    Mirrors comparison comparison.view.SameItems
      (tuple compiler expand es) (tuple compiler expand' es') := by
  induction hAll with
  | nil =>
      rw [tuple, tuple]
      exact .pure rfl
  | cons hLike _ ih =>
      rw [Expr.partsOfAll, allPaired_append] at hParts
      rcases spread_or_plain hLike with
        ⟨argument, argument', note, note', rfl, rfl, -⟩ |
          ⟨hPlain, hPlain'⟩
      · rw [tuple, tuple]
        exact ih hParts.2
      · rw [tuple, tuple]
        · refine (hParts.1.self hLike).compiled.bind
            fun first first' hFirst => ?_
          refine (ih hParts.2).bind fun items items' hItems => .pure ?_
          exact congrArg₂ List.cons hFirst hItems
        · exact hPlain'
        · exact hPlain

/- The first spread. -/
theorem mirrors_rest
    (hAll : List.Forall₂ comparison.like es es')
    (hParts :
      AllPaired compiler expand expand' comparison
        (Expr.partsOfAll es)) :
    Mirrors comparison (Option.Rel comparison.view.Same)
      (rest compiler expand es) (rest compiler expand' es') := by
  induction hAll with
  | nil =>
      rw [rest, rest]
      exact .pure .none
  | cons hLike _ ih =>
      rw [Expr.partsOfAll, allPaired_append] at hParts
      rcases spread_or_plain hLike with
        ⟨argument, argument', note, note', rfl, rfl, hArgument⟩ |
          ⟨hPlain, hPlain'⟩
      · rw [rest, rest]
        exact (hParts.1.argument hArgument).compiled.bind
          fun schema schema' hSchema => .pure (.some hSchema)
      · rw [rest, rest]
        · exact ih hParts.2
        · exact hPlain'
        · exact hPlain

theorem mirrors_throw {α β : Type}
    {matched : α → β → Prop}
    {error error' : CompileError}
    (hError : CompileError.Like comparison.located error error') :
    Mirrors comparison matched (throw error) (throw error') := by
  rcases error with ⟨cause, span⟩
  rcases error' with ⟨cause', span'⟩
  rcases hError with ⟨hCause, hSpan⟩
  cases hCause
  exact .fail cause hSpan

theorem mirrors_array
    (hAll : List.Forall₂ comparison.like es es')
    (hParts :
      AllPaired compiler expand expand' comparison (Expr.partsOfAll es))
    (exact : Bool) :
    Mirrors comparison comparison.view.Same
      (array compiler expand es exact)
      (array compiler expand' es' exact) := by
  have hLength := hAll.length_eq
  cases hAll with
  | nil =>
      rw [array, array]
      exact .pure rfl
  | @cons element element' others others' hFirst hRest =>
      cases hRest with
      | nil =>
          rw [Expr.partsOfAll, allPaired_append] at hParts
          rcases spread_or_plain hFirst with
            ⟨argument, argument', note, note', rfl, rfl, hArgument⟩ |
              ⟨hPlain, hPlain'⟩
          · rw [array, array]
            cases exact with
            | true => exact .fail _ (comparison.place hFirst)
            | false =>
                refine (hParts.1.argument hArgument).compiled.bind
                  fun schema schema' hSchema => .pure ?_
                exact View.same_object (View.SameFields.insert rfl _ hSchema)
          · rw [array, array]
            · refine (hParts.1.self hFirst).compiled.bind
                fun schema schema' hSchema => .pure ?_
              exact View.same_object (View.SameFields.insert rfl _ hSchema)
            · exact hPlain'
            · exact hPlain
      | @cons second second' more more' hSecond hMore =>
          have hWhole :
              List.Forall₂ comparison.like (element :: second :: more)
                (element' :: second' :: more') :=
            .cons hFirst (.cons hSecond hMore)
          have hFault := Likeness.arrayFault? hWhole exact
          rw [array, array]
          · generalize arrayFault? (element :: second :: more) exact =
              fault at hFault ⊢
            generalize arrayFault? (element' :: second' :: more') exact =
              fault' at hFault ⊢
            cases hFault with
            | some hError => exact mirrors_throw hError
            | none =>
                refine (mirrors_tuple hWhole hParts).bind
                  fun items items' hItems => ?_
                rw [← hLength]
                have hFields :=
                  View.SameFields.insert
                    (Eq.refl (Schema.seenFields comparison.view
                      (arrayFields
                        (element :: second :: more).length exact)))
                    (tupleKeys compiler.version).1
                    (View.same_array hItems)
                refine (mirrors_rest hWhole hParts).bind
                  fun last last' hLast => ?_
                cases hLast with
                | none => exact .pure (View.same_object hFields)
                | some hSchema =>
                    exact .pure (View.same_object (hFields.insert _ hSchema))
          all_goals simp

------------------------------------------------------------
-- Members Taken As They Are Written
------------------------------------------------------------

theorem mirrors_literalMembers
    (hAll :
      List.Forall₂ (Member.Like comparison.located comparison.like)
        members members')
    (hParts :
      AllPaired compiler expand expand' comparison
        (Member.partsOfAll members))
    {fields fields' : Fields}
    (hFields : comparison.view.SameFields fields fields') :
    Mirrors comparison comparison.view.SameFields
      (literalMembers compiler expand fields members)
      (literalMembers compiler expand' fields' members') := by
  refine Mirrors.pass (literalStep compiler expand)
    (literalStep compiler expand') ?_ ?_ literalMembers_cons
    literalMembers_cons hAll ?_ hFields
  · intro fields
    rw [literalMembers]
  · intro fields
    rw [literalMembers]
  · intro member hMember member' hLike fields fields' hFields
    cases hLike with
    | property hKey computed hValue hSpan comments comments' =>
        refine .checked (Likeness.matches_literalKey hKey hSpan) ?_
        intro name _
        refine ((hParts.value hMember).self hValue).written.bind ?_
        intro schema schema' hSchema
        exact .pure (hFields.insert name hSchema)
    | spread hSpread => exact .fail _ (comparison.place hSpread)

theorem mirrors_schemaMembers
    (hAll :
      List.Forall₂ (Member.Like comparison.located comparison.like)
        members members')
    (hParts :
      AllPaired compiler expand expand' comparison
        (Member.partsOfAll members))
    (name : String)
    {fields fields' : Fields}
    (hFields : comparison.view.SameFields fields fields') :
    Mirrors comparison comparison.view.SameFields
      (schemaMembers compiler expand name fields members)
      (schemaMembers compiler expand' name fields' members') := by
  refine Mirrors.pass (schemaStep compiler expand name)
    (schemaStep compiler expand' name) ?_ ?_ (schemaMembers_cons name)
    (schemaMembers_cons name) hAll ?_ hFields
  · intro fields
    rw [schemaMembers]
  · intro fields
    rw [schemaMembers]
  · intro member hMember member' hLike fields fields' hFields
    cases hLike with
    | property hKey computed hValue hSpan comments comments' =>
        refine .checked (Likeness.matches_propertyName hKey hSpan) ?_
        intro key _
        refine ((hParts.value hMember).self hValue).compiled.bind ?_
        intro schema schema' hSchema
        exact .pure (hFields.insert key hSchema)
    | spread hSpread => exact .fail _ (comparison.place hSpread)

theorem mirrors_patternList
    (hAll :
      List.Forall₂ (Member.Like comparison.located comparison.like)
        members members')
    (hParts :
      AllPaired compiler expand expand' comparison
        (Member.partsOfAll members))
    {patterns patterns' : OrderedMap Schema}
    (hPatterns : comparison.view.SameFields patterns patterns') :
    Mirrors comparison comparison.view.SameFields
      (patternList compiler expand patterns members)
      (patternList compiler expand' patterns' members') := by
  refine Mirrors.pass (patternStep compiler expand)
    (patternStep compiler expand') ?_ ?_ patternList_cons
    patternList_cons hAll ?_ hPatterns
  · intro patterns
    rw [patternList]
  · intro patterns
    rw [patternList]
  · intro member hMember member' hLike patterns patterns' hPatterns
    cases hLike with
    | property hKey computed hValue hSpan comments comments' =>
        cases hKey with
        | regex pattern flags =>
            refine ((hParts.value hMember).self hValue).compiled.bind ?_
            intro schema schema' hSchema
            exact .pure (hPatterns.insert pattern hSchema)
        | word hWord hWord' =>
            rcases Key.word_cases hWord with rfl | rfl <;>
              rcases Key.word_cases hWord' with rfl | rfl <;>
                exact .pure hPatterns
        | _ => exact .pure hPatterns
    | spread hSpread => exact .pure hPatterns

theorem mirrors_literalValues
    (hAll :
      List.Forall₂ (Member.Like comparison.located comparison.like)
        members members')
    (hParts :
      AllPaired compiler expand expand' comparison
        (Member.partsOfAll members)) :
    Mirrors comparison comparison.view.SameItems
      (literalValues compiler expand members)
      (literalValues compiler expand' members') := by
  induction hAll with
  | nil =>
      rw [literalValues, literalValues]
      exact .pure rfl
  | cons hLike _ ih =>
      have hRest := hParts
      rw [Member.partsOfAll, allPaired_append] at hRest
      cases hLike with
      | property hKey computed hValue hSpan comments comments' =>
          rw [literalValues, literalValues]
          have hPaired := hParts.value List.mem_cons_self
          refine (hPaired.self hValue).written.bind
            fun first first' hFirst => ?_
          refine (ih hRest.2).bind fun more more' hMore => .pure ?_
          exact congrArg₂ List.cons hFirst hMore
      | spread hSpread =>
          rw [literalValues, literalValues]
          exact ih hRest.2

------------------------------------------------------------
-- Arguments Of Operations
------------------------------------------------------------

theorem mirrors_readArg
    {arg arg' : Expr}
    (hLike : comparison.like arg arg')
    (hParts : AllPaired compiler expand expand' comparison arg.parts)
    (name : String)
    {span span' : Span}
    (hSpan : comparison.located span span')
    (reading : Reading) :
    Mirrors comparison comparison.view.Same
      (readArg compiler expand name span reading arg)
      (readArg compiler expand' name span' reading arg') := by
  have hArg := hParts.self hLike
  have hForm := comparison.form hLike
  rcases arg with ⟨form, note⟩
  rcases arg' with ⟨form', note'⟩
  cases reading with
  | schema =>
      rw [readArg, readArg]
      exact hArg.compiled
  | literal =>
      rw [readArg, readArg]
      exact hArg.written
  | flagOrSchema =>
      cases hForm with
      | boolean value =>
          rw [readArg, readArg]
          exact .pure rfl
      | _ =>
          rw [readArg, readArg]
          · exact hArg.compiled
          all_goals simp
  | items =>
      cases hForm with
      | array hElements =>
          rw [readArg, readArg]
          refine (mirrors_all hElements (hParts.mono ?_)).bind
            fun items items' hItems => .pure (View.same_array hItems)
          exact List.subset_cons_self _ _
      | _ =>
          rw [readArg, readArg]
          · exact hArg.compiled
          all_goals simp
  | schemaMap =>
      cases hForm with
      | call hCallee hArguments =>
          have hCall := hArg.compiled
          rw [expr, expr] at hCall
          rw [readArg, readArg]
          refine hCall.bind fun schema schema' hSchema => ?_
          rw [hSchema.isMap]
          split
          · exact .pure hSchema
          · exact .fail _ hSpan
      | object hMembers =>
          rw [readArg, readArg]
          refine (mirrors_schemaMembers hMembers (hParts.mono ?_) name
            rfl).bind fun fields fields' hFields =>
              .pure (View.same_object hFields)
          exact List.subset_cons_self _ _
      | _ =>
          rw [readArg, readArg]
          · exact Mirrors.fail _ hSpan
          all_goals simp
  | literalObject =>
      cases hForm with
      | object hMembers =>
          rw [readArg, readArg]
          refine (mirrors_literalMembers hMembers (hParts.mono ?_)
            rfl).bind fun fields fields' hFields =>
              .pure (View.same_object hFields)
          exact List.subset_cons_self _ _
      | _ =>
          rw [readArg, readArg]
          · exact Mirrors.fail _ hSpan
          all_goals simp

/- Keys with values that are seen alike. -/
theorem samePairs_zip
    {view : View}
    (names : List String)
    {values values' : List Schema}
    (hValues : view.SameItems values values') :
    view.SamePairs (names.zip values) (names.zip values') := by
  have hPairs := View.sameItems_iff.mp hValues
  clear hValues
  induction hPairs generalizing names with
  | nil => rfl
  | cons hValue _ ih =>
      cases names with
      | nil => rfl
      | cons name rest => exact View.SamePairs.cons (ih rest) name hValue

theorem mirrors_entries
    {site site' : Call}
    (hSite : Call.Like comparison.toLikeness site site')
    (hParts :
      AllPaired compiler expand expand' comparison
        (Expr.partsOfAll site.args)) :
    Mirrors comparison comparison.view.SamePairs
      (evaluate compiler expand .entries site)
      (evaluate compiler expand' .entries site') := by
  have hFault :
      CompileError.Like comparison.located (site.error site.entryFault)
        (site'.error site'.entryFault) := by
    refine ⟨?_, hSite.span⟩
    unfold Call.error
    rw [hSite.name, hSite.entryFault]
  have hWhole := hSite
  rcases site with ⟨name, args, span⟩
  rcases site' with ⟨name', args', span'⟩
  rcases hSite with ⟨rfl, hArgs, hSpan⟩
  cases hArgs with
  | nil =>
      rw [evaluate, evaluate]
      · exact mirrors_throw hFault
      all_goals simp
  | @cons first first' others others' hFirst hOthers =>
      rw [Expr.partsOfAll, allPaired_append] at hParts
      cases hOthers with
      | nil =>
          have hForm := comparison.form hFirst
          rcases first with ⟨form, note⟩
          rcases first' with ⟨form', note'⟩
          cases hForm with
          | object hMembers =>
              rw [evaluate, evaluate]
              refine .checked (Call.matches_memberNames hMembers) ?_
              intro keys _
              refine (mirrors_literalValues hMembers
                (hParts.1.mono (List.subset_cons_self _ _))).bind ?_
              intro values values' hValues
              exact .pure (samePairs_zip keys hValues)
          | _ =>
              rw [evaluate, evaluate]
              · exact mirrors_throw hFault
              all_goals simp
      | @cons second second' more more' hSecond hMore =>
          rw [Expr.partsOfAll, allPaired_append] at hParts
          cases hMore with
          | nil =>
              rw [evaluate, evaluate]
              refine .checked (hWhole.firstString hFirst) ?_
              intro target _
              refine (hParts.2.1.self hSecond).written.bind ?_
              intro schema schema' hSchema
              exact .pure (View.SamePairs.cons rfl target hSchema)
          | cons _ _ =>
              rw [evaluate, evaluate]
              · exact mirrors_throw hFault
              all_goals simp

theorem mirrors_evaluate
    {site site' : Call}
    (hSite : Call.Like comparison.toLikeness site site')
    (hParts :
      AllPaired compiler expand expand' comparison
        (Expr.partsOfAll site.args))
    {demand : Demand}
    (hDemand : demand ≠ .definitions) :
    Mirrors comparison (demand.Same comparison.view)
      (evaluate compiler expand demand site)
      (evaluate compiler expand' demand site') := by
  cases demand with
  | nothing =>
      rw [evaluate, evaluate]
      exact .pure trivial
  | entries => exact mirrors_entries hSite hParts
  | schemas =>
      rw [evaluate, evaluate]
      refine .checked hSite.atLeastOne fun _ _ => ?_
      exact mirrors_all hSite.args hParts
  | value reading =>
      have hFault :
          CompileError.Like comparison.located (site.error .oneArgument)
            (site'.error .oneArgument) := by
        refine ⟨?_, hSite.span⟩
        unfold Call.error
        rw [hSite.name]
      rcases site with ⟨name, args, span⟩
      rcases site' with ⟨name', args', span'⟩
      rcases hSite with ⟨rfl, hArgs, hSpan⟩
      cases hArgs with
      | nil =>
          rw [evaluate, evaluate]
          · exact mirrors_throw hFault
          all_goals simp
      | cons hFirst hOthers =>
          cases hOthers with
          | nil =>
              rw [Expr.partsOfAll, allPaired_append] at hParts
              rw [evaluate, evaluate]
              exact mirrors_readArg hFirst hParts.1 _ hSpan reading
          | cons _ _ =>
              rw [evaluate, evaluate]
              · exact mirrors_throw hFault
              all_goals simp
  | definitions => exact absurd rfl hDemand

theorem mirrors_run
    {site site' : Call}
    (hSite : Call.Like comparison.toLikeness site site')
    (hParts :
      AllPaired compiler expand expand' comparison
        (Expr.partsOfAll site.args))
    {method : Method}
    (hMethod : method.Respects comparison.toLikeness)
    {receiver receiver' : Schema}
    (hReceiver : comparison.view.Same receiver receiver') :
    Mirrors comparison comparison.view.Same
      (run compiler expand method receiver site)
      (run compiler expand' method receiver' site') := by
  rw [run, run]
  refine .checked (method.matches_admits hReceiver hSite) fun _ _ => ?_
  refine (mirrors_evaluate hSite hParts hMethod.silent).bind ?_
  intro result result' hResult
  exact .check (hMethod.finish hReceiver hSite hResult)

theorem mirrors_call
    (hRespects : compiler.Respects comparison.toLikeness)
    {callee callee' : Expr}
    {arguments arguments' : List Expr}
    {note note' : Note}
    (hLike :
      comparison.like ⟨.call callee arguments, note⟩
        ⟨.call callee' arguments', note'⟩)
    (hParts :
      AllPaired compiler expand expand' comparison
        (Form.call callee arguments).parts) :
    Mirrors comparison comparison.view.Same
      (call compiler expand callee arguments note)
      (call compiler expand' callee' arguments' note') := by
  have hCalls : comparison.RelatesCalls := ⟨_, _, _, _, hLike⟩
  have hSpan : comparison.located note.span note'.span :=
    comparison.place hLike
  rw [Form.parts, allPaired_append] at hParts
  have hBoth :
      comparison.like callee callee' ∧
        List.Forall₂ comparison.like arguments arguments' := by
    cases comparison.form hLike with
    | call hCallee hArguments => exact ⟨hCallee, hArguments⟩
  rcases hBoth with ⟨hCallee, hArguments⟩
  have hSite :
      ∀ name,
        Call.Like comparison.toLikeness ⟨name, arguments, note.span⟩
          ⟨name, arguments', note'.span⟩ :=
    fun name => ⟨rfl, hArguments, hSpan⟩
  have hForm := comparison.form hCallee
  have hPlace := comparison.place hCallee
  have hKind := Likeness.kindName hCallee
  rcases callee with ⟨form, calleeNote⟩
  rcases callee' with ⟨form', calleeNote'⟩
  cases hForm with
  | identifier name =>
      rw [call, call]
      cases hGet : compiler.functions.get? name with
      | none => exact .fail _ hPlace
      | some function =>
          have hFunction := hRespects.functions hCalls name function hGet
          refine (mirrors_evaluate (hSite name) hParts.2
            hFunction.silent).bind ?_
          intro result result' hResult
          exact .check (hFunction.finish (hSite name) hResult)
  | member hObject hProperty computed =>
      cases computed with
      | false =>
          rw [call, call, Likeness.identifier? hProperty,
            Likeness.kindName hProperty]
          split
          · exact .fail _ (comparison.place hProperty)
          · rename_i name hName
            have hReceiver := hParts.1.mono (List.subset_cons_self _ _)
            rw [Form.parts, allPaired_append] at hReceiver
            refine (hReceiver.1.self hObject).compiled.bind ?_
            intro receiver receiver' hReceiver
            cases hGet : compiler.methods.get? name with
            | none => exact .fail _ (comparison.place hProperty)
            | some method =>
                have hMethod := hRespects.methods hCalls name method hGet
                refine (mirrors_run (hSite name) hParts.2 hMethod
                  hReceiver).bind ?_
                intro result result' hResult
                rw [hResult.isFalsy]
                split
                · exact .fail _ hSpan
                · exact .pure hResult.stripNames
      | true =>
          rw [call, call]
          · exact .fail _ hPlace
          all_goals simp
  | _ =>
      rw [call, call, hKind]
      · exact .fail _ hPlace
      all_goals simp

end Compile

end SchemaLang
