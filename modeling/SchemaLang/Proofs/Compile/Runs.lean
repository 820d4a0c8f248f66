import SchemaLang.Compile.Declared
import SchemaLang.Proofs.Compile.Correspondence

/-
  Two runs of the compiler on expressions that are alike, with names
  that may be declared. The names that may be referred to go down with
  each declared name that is resolved, and the runs stay in step.

  Main declarations:
    * `Compile.EntryLike` and `Compile.mirrors_resolve`
    * `Compile.Comparison.InStep` and `Compile.Comparison.InStep.paired`
    * `Registry.Like`
    * `Likeness.matches_expr` and `Likeness.matches_compile`
-/

namespace SchemaLang

namespace Compile

variable {compiler : Compiler}
variable {comparison : Comparison}

------------------------------------------------------------
-- Declared Names
------------------------------------------------------------

/- A name stands for schemas that are seen alike, or is declared so. -/
inductive EntryLike
    (view : View)
    (declared : Expr → Expr → Prop) :
    Registry.Entry → Registry.Entry → Prop
  | compiled
      {schema schema' : Schema}
      (hSame : view.Same schema schema') :
      EntryLike view declared (.compiled schema) (.compiled schema')
  | source
      {source source' : Expr}
      (hDeclared : declared source source') :
      EntryLike view declared (.source source) (.source source')

/-
  A name is resolved alike if it stands for the same in both runs,
  and a declared expression is compiled alike once its name may no
  longer be referred to. A name that is unknown at first need not be
  looked at, if errors are not.
-/
theorem mirrors_resolve
    {names names' : List String}
    {e e' : Expr}
    (hLike : comparison.like e e')
    (hEntry :
      ∀ name, e.referenceName = .ok name →
        ∀ before before', comparison.related before before' →
          (comparison.ends = .results ∧ before.get? name = none) ∨
            Option.Rel
              (EntryLike comparison.view fun source source' =>
                (name ∈ names ↔ name ∈ names') ∧
                  (name ∈ names →
                    Mirrors comparison comparison.view.Same
                      (expr compiler
                        (expandWithin compiler (names.erase name))
                        source)
                      (expr compiler
                        (expandWithin compiler (names'.erase name))
                        source')))
              (before.get? name) (before'.get? name)) :
    Mirrors comparison comparison.view.Same
      (resolve (expandWithin compiler names) e)
      (resolve (expandWithin compiler names') e') := by
  rw [resolve, resolve]
  refine .checked (Likeness.matches_referenceName _ _ hLike) ?_
  intro name hName
  refine .read fun before before' hRelated => ?_
  rcases hEntry name hName before before' hRelated with
    ⟨hResults, hNone⟩ | hBoth
  · rw [hNone]
    intro result after hEnds hLooked
    cases hEnds
    rw [hResults] at hLooked
    cases hLooked
  · generalize before.get? name = entry at hBoth ⊢
    generalize before'.get? name = entry' at hBoth ⊢
    cases hBoth with
    | none =>
        exact Mirrors.fail _ (comparison.place hLike) before before'
          hRelated
    | some hBoth =>
        cases hBoth with
        | compiled hSame =>
            exact Mirrors.pure (hSame.titled name) before before' hRelated
        | source hSource =>
            rcases hSource with ⟨hMember, hInner⟩
            dsimp only
            rw [expandWithin, expandWithin]
            by_cases hName : name ∈ names
            · rw [dif_pos hName, dif_pos (hMember.mp hName)]
              exact Mirrors.bind (hInner hName)
                (fun schema schema' hSchema =>
                  .pure (hSchema.titled name)) before before' hRelated
            · have hName' : name ∉ names' :=
                fun hOther => hName (hMember.mpr hOther)
              rw [dif_neg hName, dif_neg hName']
              have hFails :
                  Mirrors comparison comparison.view.Same
                    (fail (.circular name) e.span)
                    (fail (.circular name) e'.span) :=
                .fail _ (comparison.place hLike)
              exact hFails.bind (fun schema schema' hSchema =>
                .pure (hSchema.titled name)) before before' hRelated

/-
  What has to hold of two runs, so that the second mirrors the first.
  Two expressions fit the names that may be referred to in the runs.
  Then the names that they denote stand for the same in both runs, and
  what is declared fits again when its name is taken away; and the
  names that they give keep names related. A name that is unknown at
  first need not be looked at, if errors are not.
-/
structure Comparison.InStep
    (comparison : Comparison)
    (fits : List String → List String → Expr → Expr → Prop) :
    Prop where
  like :
    ∀ {names names' e e'}, fits names names' e e' → comparison.like e e'
  denoted :
    ∀ {names names' e e'}, fits names names' e e' →
      ∀ name ∈ e.names,
        ∀ before before', comparison.related before before' →
          (comparison.ends = .results ∧ before.get? name = none) ∨
            Option.Rel
              (EntryLike comparison.view fun source source' =>
                (name ∈ names ↔ name ∈ names') ∧
                  fits (names.erase name) (names'.erase name) source
                    source')
              (before.get? name) (before'.get? name)
  given :
    ∀ {names names' e e'}, fits names names' e e' →
      ∀ name ∈ e.given,
        ∀ schema schema', comparison.view.Same schema schema' →
          ∀ before before', comparison.related before before' →
            comparison.related (before.define name schema)
              (before'.define name schema')

theorem EntryLike.imp
    {view : View}
    {declared declared' : Expr → Expr → Prop}
    {entry entry' : Registry.Entry}
    (hEntry : EntryLike view declared entry entry')
    (hImp : ∀ source source', declared source source' →
      declared' source source') :
    EntryLike view declared' entry entry' := by
  cases hEntry with
  | compiled hSame => exact .compiled hSame
  | source hDeclared => exact .source (hImp _ _ hDeclared)

/-
  The induction is on the names that may be referred to in the first
  run. Each declared name that is resolved takes one of them away.
-/
theorem Comparison.InStep.paired
    {fits : List String → List String → Expr → Expr → Prop}
    (hStep : comparison.InStep fits)
    (hRespects : compiler.Respects comparison.toLikeness)
    {names names' : List String}
    {e e' : Expr}
    (hFits : fits names names' e e') :
    Paired compiler (expandWithin compiler names)
      (expandWithin compiler names') comparison e e' := by
  induction hCount : names.length using Nat.strongRecOn
    generalizing names names' e e' with
  | ind count ih =>
      apply paired_of_grounded hRespects (hStep.like hFits)
      intro part hPart part' hLike
      constructor
      · apply mirrors_resolve hLike
        intro name hName before before' hRelated
        refine (hStep.denoted hFits name (Expr.mem_names hPart hName)
          before before' hRelated).imp_right fun hBoth => ?_
        generalize before.get? name = entry at hBoth ⊢
        generalize before'.get? name = entry' at hBoth ⊢
        cases hBoth with
        | none => exact .none
        | some hBoth =>
            refine .some (hBoth.imp fun source source' hSource => ?_)
            refine ⟨hSource.1, fun hTaken => ?_⟩
            have hLess : (names.erase name).length < count := by
              have hPositive := List.length_pos_of_mem hTaken
              rw [List.length_erase_of_mem hTaken, ← hCount]
              omega
            exact (ih _ hLess hSource.2 rfl).compiled
      · intro name hName
        exact hStep.given hFits name
          (List.mem_filterMap.mpr ⟨part, hPart, hName⟩)

/- Nothing is being resolved when an expression is compiled. -/
theorem outcome_compile
    (compiler : Compiler)
    (e : Expr)
    (registry : Registry) :
    outcome (compile compiler e) registry =
      outcome
        (expr compiler
          (expandWithin compiler registry.declaredNames) e)
        registry := by
  unfold compile
  rw [outcome_bind]
  rfl

end Compile

------------------------------------------------------------
-- Registries
------------------------------------------------------------

namespace Registry

variable {view : View}
variable {declared : Expr → Expr → Prop}
variable {registry registry' : Registry}

/- The same names in the same order stand for what is alike. -/
def Like
    (view : View)
    (declared : Expr → Expr → Prop)
    (registry registry' : Registry) : Prop :=
  List.Forall₂
    (fun given given' : String × Entry =>
      given.1 = given'.1 ∧
        Compile.EntryLike view declared given.2 given'.2)
    registry.toList registry'.toList

namespace Like

/- A registry is like itself, if what it declares is. -/
theorem refl
    (hDeclared :
      ∀ name source, (name, Entry.source source) ∈ registry.toList →
        declared source source) :
    Like view declared registry registry := by
  refine List.forall₂_same.mpr ?_
  rintro ⟨name, entry⟩ hMember
  refine ⟨rfl, ?_⟩
  cases entry with
  | source source => exact .source (hDeclared name source hMember)
  | compiled schema => exact .compiled (.refl schema)

theorem get?
    (hLike : Like view declared registry registry')
    (name : String) :
    Option.Rel (Compile.EntryLike view declared) (registry.get? name)
      (registry'.get? name) := by
  unfold Like at hLike
  unfold OrderedMap.get?
  generalize registry.toList = given at hLike ⊢
  generalize registry'.toList = given' at hLike ⊢
  induction hLike with
  | nil => exact .none
  | cons hFirst _ ih =>
      rw [Pairs.get?_cons, Pairs.get?_cons, hFirst.1]
      split
      · exact .some hFirst.2
      · exact ih

theorem define
    (hLike : Like view declared registry registry')
    (name : String)
    {schema schema' : Schema}
    (hSame : view.Same schema schema') :
    Like view declared (registry.define name schema)
      (registry'.define name schema') := by
  unfold Like Registry.define at *
  rw [OrderedMap.toList_insert, OrderedMap.toList_insert]
  generalize registry.toList = given at hLike ⊢
  generalize registry'.toList = given' at hLike ⊢
  induction hLike with
  | nil => exact .cons ⟨rfl, .compiled hSame⟩ .nil
  | cons hFirst hRest ih =>
      rw [Pairs.insert_cons, Pairs.insert_cons, hFirst.1]
      split
      · exact .cons ⟨rfl, .compiled hSame⟩ hRest
      · exact .cons ⟨rfl, hFirst.2⟩ ih

/- The same names are declared. -/
theorem declaredNames_eq
    (hLike : Like view declared registry registry') :
    registry.declaredNames = registry'.declaredNames := by
  unfold Like at hLike
  unfold declaredNames
  rw [← OrderedMap.names_toList, ← OrderedMap.names_toList,
    OrderedMap.toList_filter, OrderedMap.toList_filter]
  unfold Pairs.names
  generalize registry.toList = given at hLike ⊢
  generalize registry'.toList = given' at hLike ⊢
  induction hLike with
  | nil => rfl
  | cons hFirst _ ih =>
      have hSource :
          ∀ {entry entry' : Entry},
            Compile.EntryLike view declared entry entry' →
              entry.isSource = entry'.isSource := by
        intro entry entry' hEntry
        cases hEntry <;> rfl
      rw [List.filter_cons, List.filter_cons, hSource hFirst.2]
      split
      · rw [List.map_cons, List.map_cons, ih, hFirst.1]
      · exact ih

end Like

end Registry

------------------------------------------------------------
-- Whole Runs
------------------------------------------------------------

namespace Likeness

open Compile (expr expandWithin outcome compile)

variable {likeness : Likeness}
variable {declared : Expr → Expr → Prop}
variable {compiler : Compiler}
variable {registry registry' : Registry}
variable {e e' : Expr}

/- Runs are compared at all ends, on registries that are alike. -/
def comparison
    (likeness : Likeness)
    (declared : Expr → Expr → Prop) : Compile.Comparison :=
  { likeness with
    related := Registry.Like likeness.view declared
    ends := .all }

/- Runs on registries that are alike stay in step. -/
theorem inStep_comparison
    (hDeclared :
      ∀ source source', declared source source' →
        likeness.like source source') :
    (likeness.comparison declared).InStep fun names names' e e' =>
      names' = names ∧ likeness.like e e' where
  like := fun hFits => hFits.2
  denoted := by
    rintro names _ e e' ⟨rfl, -⟩ name - before before' hRelated
    have hEntry := Registry.Like.get? hRelated name
    refine .inr ?_
    generalize OrderedMap.get? before name = entry at hEntry ⊢
    generalize OrderedMap.get? before' name = entry' at hEntry ⊢
    cases hEntry with
    | none => exact .none
    | some hEntry =>
        refine .some (hEntry.imp fun source source' hSource => ?_)
        exact ⟨Iff.rfl, rfl, hDeclared source source' hSource⟩
  given := by
    intro names names' e e' _ name _ schema schema' hSame before before'
      hRelated
    exact Registry.Like.define hRelated name hSame

/-
  Expressions that are alike are compiled alike, whichever names may
  still be referred to.
-/
theorem matches_expr
    (hDeclared :
      ∀ source source', declared source source' →
        likeness.like source source')
    (hRespects : compiler.Respects likeness)
    (names : List String)
    (hRegistry : Registry.Like likeness.view declared registry registry')
    (hLike : likeness.like e e') :
    Matches likeness.located likeness.view.Same
        (outcome (expr compiler (expandWithin compiler names) e)
          registry).1
        (outcome (expr compiler (expandWithin compiler names) e')
          registry').1 ∧
      Registry.Like likeness.view declared
        (outcome (expr compiler (expandWithin compiler names) e)
          registry).2
        (outcome (expr compiler (expandWithin compiler names) e')
          registry').2 := by
  have hPaired :
      Compile.Paired compiler (expandWithin compiler names)
        (expandWithin compiler names) (likeness.comparison declared) e
        e' :=
    (inStep_comparison hDeclared).paired hRespects ⟨rfl, hLike⟩
  rcases hPaired.compiled registry registry' hRegistry _ _ rfl trivial with
    ⟨result', after', hSecond, hMatches, hAfter⟩
  rw [hSecond]
  exact ⟨hMatches, hAfter⟩

/- So they are if nothing is being resolved. -/
theorem matches_compile
    (hDeclared :
      ∀ source source', declared source source' →
        likeness.like source source')
    (hRespects : compiler.Respects likeness)
    (hRegistry : Registry.Like likeness.view declared registry registry')
    (hLike : likeness.like e e') :
    Matches likeness.located likeness.view.Same
        (outcome (compile compiler e) registry).1
        (outcome (compile compiler e') registry').1 ∧
      Registry.Like likeness.view declared
        (outcome (compile compiler e) registry).2
        (outcome (compile compiler e') registry').2 := by
  rw [Compile.outcome_compile, Compile.outcome_compile,
    ← hRegistry.declaredNames_eq]
  exact matches_expr hDeclared hRespects _ hRegistry hLike

end Likeness

end SchemaLang
