import SchemaLang.Proofs.Compile.Runs
import SchemaLang.Proofs.Expr.Reflexive

/-
  Compiling one expression twice, side by side. The second run
  follows the first if it ends so, and if names are related again. It
  does if it does so where names are resolved and where names are
  given; all other steps of the compiler look at neither.

  Main declarations:
    * `Compiler.IsSilent`
    * `Compile.Follows` and `Compile.Alike`
    * `Compile.Lockstep` and `Compile.Lockstep.alike`
-/

namespace SchemaLang

------------------------------------------------------------
-- Silent Operations
------------------------------------------------------------

/- No operation gives names by itself. -/
structure Compiler.IsSilent
    (compiler : Compiler) : Prop where
  methods :
    ∀ name method, compiler.methods.get? name = some method →
      method.demand ≠ .definitions
  functions :
    ∀ name function, compiler.functions.get? name = some function →
      function.demand ≠ .definitions
  directives :
    ∀ name method, compiler.directives.get? name = some method →
      method.demand ≠ .definitions

/- The operations that are there from the start give no names. -/
theorem Compiler.isSilent_builtin
    (version : Version) :
    Compiler.IsSilent { version := version } where
  methods := by
    have hAll :
        ∀ entry ∈ Method.builtins.toList, entry.2.demand ≠ .definitions := by
      decide
    intro name method hGet
    exact hAll _ (OrderedMap.mem_of_get? hGet)
  functions := by
    intro name function hGet
    cases hGet
  directives := by
    have hAll :
        ∀ entry ∈ Method.directives.toList,
          entry.2.demand ≠ .definitions := by
      decide
    intro name method hGet
    exact hAll _ (OrderedMap.mem_of_get? hGet)

/- What is seen of schemas as they are tells whether they are equal. -/
theorem Demand.eq_of_same
    {demand : Demand}
    {result result' : demand.Result}
    (hSame : demand.Same {} result result') :
    result' = result := by
  cases demand with
  | nothing => rfl
  | value reading => exact (View.same_whole_iff.mp hSame).symm
  | definitions => exact (View.same_whole_iff.mp hSame).symm
  | schemas =>
      simpa [Demand.Same, View.SameItems, eq_comm] using hSame
  | entries =>
      simpa [Demand.Same, View.SamePairs, eq_comm] using hSame

/- Every expression is like itself, wherever it stands. -/
def Likeness.equal : Likeness :=
  Likeness.within fun _ => True

theorem Call.Like.eq
    {call call' : Call}
    (hCall : Call.Like .equal call call') :
    call' = call := by
  rcases call with ⟨name, args, span⟩
  rcases call' with ⟨name', args', span'⟩
  rcases hCall with ⟨rfl, hArgs, hSpan⟩
  have hSame : List.Forall₂ Eq args args' :=
    hArgs.imp fun _ _ hLike => hLike.1.symm
  rw [List.forall₂_eq_eq_eq] at hSame
  rw [Call.mk.injEq]
  exact ⟨rfl, hSame.symm, hSpan.1⟩

/- What is done twice matches itself. -/
theorem matches_equal
    (result : Except CompileError Schema) :
    Matches Likeness.equal.located Likeness.equal.view.Same result
      result := by
  cases result with
  | ok schema => exact .ok (.refl schema)
  | error error => exact .error error.cause ⟨rfl, trivial⟩

/- Operations that give no names do the same when they run again. -/
theorem Compiler.IsSilent.respects
    {compiler : Compiler}
    (hSilent : compiler.IsSilent) :
    compiler.Respects .equal := by
  have hMethod :
      ∀ method : Method, method.demand ≠ .definitions →
        method.Respects .equal := by
    intro method hDemand
    refine ⟨hDemand, ?_⟩
    intro schema schema' call call' result result' hSame hCall hResult
    rw [Demand.eq_of_same hResult, hCall.eq, View.same_whole_iff.mp hSame]
    exact matches_equal _
  refine ⟨fun name method hGet => ?_, fun _ name method hGet => ?_, ?_⟩
  · exact hMethod method (hSilent.directives name method hGet)
  · exact hMethod method (hSilent.methods name method hGet)
  · intro _ name function hGet
    refine ⟨hSilent.functions name function hGet, ?_⟩
    intro call call' result result' hCall hResult
    rw [Demand.eq_of_same hResult, hCall.eq]
    exact matches_equal _

namespace Compile

------------------------------------------------------------
-- Following
------------------------------------------------------------

/-
  If an end of the first computation is looked at, then the second
  one ends so, and the names behind them are related.
-/
def Follows {α : Type}
    (related : Registry → Registry → Prop)
    (ends : Ends)
    (first second : Compile α) : Prop :=
  ∀ before before', related before before' →
    ∀ result after, outcome first before = (result, after) →
      ends.Include result →
        ∃ after',
          outcome second before' = (result, after') ∧
            related after after'

/- An expression is compiled and taken as it is written alike. -/
structure Alike
    (compiler : Compiler)
    (expand expand' : Expand)
    (related : Registry → Registry → Prop)
    (ends : Ends)
    (e : Expr) : Prop where
  compiled :
    Follows related ends (expr compiler expand e)
      (expr compiler expand' e)
  written :
    Follows related ends (literal compiler expand e)
      (literal compiler expand' e)

variable {compiler : Compiler}
variable {related : Registry → Registry → Prop}
variable {ends : Ends}

/- Schemas are compared as they are, and errors with their places. -/
def Comparison.equal
    (related : Registry → Registry → Prop)
    (ends : Ends) : Comparison :=
  { Likeness.equal with related := related, ends := ends }

/- What mirrors a computation with equal results follows it. -/
theorem Mirrors.follows
    {first second : Compile Schema}
    (hMirrors :
      Mirrors (.equal related ends) (View.Same {}) first second) :
    Follows related ends first second := by
  intro before before' hRelated result after hEnds hLooked
  rcases hMirrors before before' hRelated result after hEnds hLooked with
    ⟨result', after', hSecond, hMatches, hAfter⟩
  refine ⟨after', ?_, hAfter⟩
  rw [hSecond]
  cases hMatches with
  | ok hSame => rw [View.same_whole_iff.mp hSame]
  | error cause hLocated => rw [hLocated.1]

------------------------------------------------------------
-- Declared Names
------------------------------------------------------------

/-
  What has to hold of two runs, so that the second follows the first.
  An expression fits the names that may be referred to in the runs.
  Then the names that it denotes stand for the same in both runs, and
  what is declared fits again when its name is taken away; and the
  names that it gives keep names related. A name that is unknown at
  first need not be looked at, if errors are not.
-/
structure Lockstep
    (related : Registry → Registry → Prop)
    (ends : Ends)
    (fits : List String → List String → Expr → Prop) : Prop where
  denoted :
    ∀ names names' e, fits names names' e →
      ∀ name ∈ e.names, ∀ before before', related before before' →
        (ends = .results ∧ before.get? name = none) ∨
          before'.get? name = before.get? name ∧
            ∀ source, before.get? name = some (.source source) →
              (name ∈ names ↔ name ∈ names') ∧
                fits (names.erase name) (names'.erase name) source
  given :
    ∀ names names' e, fits names names' e →
      ∀ name ∈ e.given, ∀ schema before before',
        related before before' →
          related (before.define name schema)
            (before'.define name schema)

/- Two runs on one expression are two runs on equal expressions. -/
theorem Lockstep.inStep
    {fits : List String → List String → Expr → Prop}
    (hLockstep : Lockstep related ends fits) :
    (Comparison.equal related ends).InStep fun names names' e e' =>
      e' = e ∧ fits names names' e where
  like := fun hFits => ⟨hFits.1, fun _ _ => trivial⟩
  denoted := by
    rintro names names' _ e ⟨rfl, hFits⟩ name hName before before'
      hRelated
    refine (hLockstep.denoted names names' e hFits name hName before
      before' hRelated).imp_right fun ⟨hSame, hDeclared⟩ => ?_
    rw [hSame]
    cases hGet : before.get? name with
    | none => exact .none
    | some entry =>
        cases entry with
        | compiled schema => exact .some (.compiled rfl)
        | source source =>
            rcases hDeclared source hGet with ⟨hMember, hInner⟩
            exact .some (.source ⟨hMember, rfl, hInner⟩)
  given := by
    rintro names names' _ e ⟨rfl, hFits⟩ name hName schema schema' hSame
      before before' hRelated
    rw [← View.same_whole_iff.mp hSame]
    exact hLockstep.given names names' e hFits name hName schema before
      before' hRelated

theorem Lockstep.alike
    {fits : List String → List String → Expr → Prop}
    (hLockstep : Lockstep related ends fits)
    (hSilent : compiler.IsSilent)
    {names names' : List String}
    {e : Expr}
    (hFits : fits names names' e) :
    Alike compiler (expandWithin compiler names)
      (expandWithin compiler names') related ends e := by
  have hPaired :
      Paired compiler (expandWithin compiler names)
        (expandWithin compiler names') (.equal related ends) e e :=
    hLockstep.inStep.paired hSilent.respects ⟨rfl, hFits⟩
  exact ⟨hPaired.compiled.follows, hPaired.written.follows⟩

end Compile

end SchemaLang
