import SchemaLang.Proofs.Compile.Equations
import SchemaLang.Proofs.Compile.Outcome
import SchemaLang.Proofs.Expr.Likeness

/-
  Two computations that run side by side, on names that are related.
  The second one mirrors the first if its end matches and the names
  are related again. What mirrors step by step mirrors as a whole.

  Main declarations:
    * `Compile.Ends` and `Compile.Comparison`
    * `Compile.MirrorsFrom` and `Compile.Mirrors`
    * `Compile.Mirrors.bind`
    * `Compile.Mirrors.read`
    * `Compile.Mirrors.pass`
-/

namespace SchemaLang

namespace Compile

variable {α β γ δ : Type}

------------------------------------------------------------
-- Ends
------------------------------------------------------------

/- Which ends of a computation are looked at. -/
inductive Ends
  | all
  | results

/- Whether an end is looked at. -/
def Ends.Include
    (ends : Ends)
    (result : Except CompileError α) : Prop :=
  match ends with
  | all => True
  | results => result.isOk = true

theorem Ends.include_ok
    (ends : Ends)
    (a : α) :
    ends.Include (.ok a) := by
  cases ends with
  | all => trivial
  | results => rfl

/- An error is looked at in a step as it is in the whole. -/
theorem Ends.Include.error
    {ends : Ends}
    {error : CompileError}
    (hError : ends.Include (.error error : Except CompileError β)) :
    ends.Include (.error error : Except CompileError α) := by
  cases ends with
  | all => trivial
  | results => cases hError

------------------------------------------------------------
-- Mirroring
------------------------------------------------------------

/-
  How two runs on expressions that are alike are compared: how their
  names are related, and which of their ends are looked at.
-/
structure Comparison extends Likeness where
  related : Registry → Registry → Prop
  ends : Ends

/-
  If an end of the first computation is looked at, then the end of
  the second one matches, and the names behind them are related.
-/
def MirrorsFrom
    (comparison : Comparison)
    (matched : α → β → Prop)
    (before before' : Registry)
    (first : Compile α)
    (second : Compile β) : Prop :=
  ∀ result after, outcome first before = (result, after) →
    comparison.ends.Include result →
      ∃ result' after',
        outcome second before' = (result', after') ∧
          Matches comparison.located matched result result' ∧
          comparison.related after after'

/- A computation mirrors another one from all related names. -/
def Mirrors
    (comparison : Comparison)
    (matched : α → β → Prop)
    (first : Compile α)
    (second : Compile β) : Prop :=
  ∀ before before', comparison.related before before' →
    MirrorsFrom comparison matched before before' first second

namespace Mirrors

variable {comparison : Comparison}
variable {matched : α → β → Prop}
variable {matched' : γ → δ → Prop}

theorem pure
    {a : α}
    {b : β}
    (hMatched : matched a b) :
    Mirrors comparison matched (Pure.pure a) (Pure.pure b) := by
  rintro before before' hRelated result after hEnds -
  cases hEnds
  exact ⟨.ok b, before', rfl, .ok hMatched, hRelated⟩

theorem fail
    (cause : Cause)
    {span span' : Span}
    (hLocated : comparison.located span span') :
    Mirrors comparison matched (Compile.fail cause span)
      (Compile.fail cause span') := by
  rintro before before' hRelated result after hEnds -
  cases hEnds
  exact ⟨_, before', rfl, .error cause hLocated, hRelated⟩

theorem check
    {result : Except CompileError α}
    {result' : Except CompileError β}
    (hResult : Matches comparison.located matched result result') :
    Mirrors comparison matched (Compile.check result)
      (Compile.check result') := by
  cases hResult with
  | ok hMatched => exact pure hMatched
  | error cause hLocated => exact fail cause hLocated

theorem define
    {name : String}
    {schema schema' : Schema}
    {matched : Unit → Unit → Prop}
    (hMatched : matched () ())
    (hDefine :
      ∀ before before', comparison.related before before' →
        comparison.related (before.define name schema)
          (before'.define name schema')) :
    Mirrors comparison matched (Compile.define name schema)
      (Compile.define name schema') := by
  rintro before before' hRelated result after hEnds -
  cases hEnds
  exact ⟨_, _, rfl, .ok hMatched, hDefine before before' hRelated⟩

theorem bind
    {first : Compile α}
    {second : Compile β}
    {next : α → Compile γ}
    {next' : β → Compile δ}
    (hFirst : Mirrors comparison matched first second)
    (hNext :
      ∀ a b, matched a b →
        Mirrors comparison matched' (next a) (next' b)) :
    Mirrors comparison matched' (first >>= next)
      (second >>= next') := by
  intro before before' hRelated result after hEnds hLooked
  rw [outcome_bind] at hEnds
  rcases hStart : outcome first before with ⟨middle, between⟩
  rw [hStart] at hEnds
  cases middle with
  | error error =>
      cases hEnds
      rcases hFirst before before' hRelated _ _ hStart hLooked.error with
        ⟨result', after', hSecond, hMatches, hAfter⟩
      cases hMatches with
      | error cause hLocated =>
          refine ⟨_, after', ?_, .error cause hLocated, hAfter⟩
          rw [outcome_bind, hSecond]
          rfl
  | ok a =>
      rcases hFirst before before' hRelated _ _ hStart
          (comparison.ends.include_ok a) with
        ⟨result', between', hSecond, hMatches, hBetween⟩
      cases hMatches with
      | ok hMatched =>
          rw [outcome_bind, hSecond]
          exact hNext a _ hMatched between between' hBetween result after
            hEnds hLooked

/- A computation goes on only with what a check has let pass. -/
theorem checked
    {result : Except CompileError α}
    {result' : Except CompileError α}
    {next : α → Compile γ}
    {next' : α → Compile δ}
    (hResult : Matches comparison.located Eq result result')
    (hNext :
      ∀ a, result = .ok a →
        Mirrors comparison matched' (next a) (next' a)) :
    Mirrors comparison matched' (Compile.check result >>= next)
      (Compile.check result' >>= next') := by
  cases hResult with
  | ok hSame =>
      subst hSame
      exact hNext _ rfl
  | error cause hLocated => exact fail cause hLocated

/- A computation may go on with the names that it finds. -/
theorem read
    {next : Registry → Compile α}
    {next' : Registry → Compile β}
    (hNext :
      ∀ before before', comparison.related before before' →
        MirrorsFrom comparison matched before before' (next before)
          (next' before')) :
    Mirrors comparison matched (get >>= next) (get >>= next') := by
  intro before before' hRelated result after hEnds hLooked
  rw [outcome_bind] at hEnds ⊢
  exact hNext before before' hRelated result after hEnds hLooked

/-
  A loop that passes a value from step to step mirrors another one
  if its steps do, item by item.
-/
theorem pass {ι κ : Type}
    {like : ι → κ → Prop}
    (step : α → ι → Compile α)
    (step' : β → κ → Compile β)
    {through : α → List ι → Compile α}
    {through' : β → List κ → Compile β}
    {items : List ι}
    {items' : List κ}
    (hNil : ∀ a, through a [] = Pure.pure a)
    (hNil' : ∀ b, through' b [] = Pure.pure b)
    (hCons :
      ∀ a item rest,
        through a (item :: rest) =
          step a item >>= fun next => through next rest)
    (hCons' :
      ∀ b item rest,
        through' b (item :: rest) =
          step' b item >>= fun next => through' next rest)
    (hItems : List.Forall₂ like items items')
    (hStep :
      ∀ item ∈ items, ∀ item', like item item' →
        ∀ a b, matched a b →
          Mirrors comparison matched (step a item) (step' b item'))
    {start : α}
    {start' : β}
    (hStart : matched start start') :
    Mirrors comparison matched (through start items)
      (through' start' items') := by
  induction hItems generalizing start start' with
  | nil =>
      rw [hNil, hNil']
      exact .pure hStart
  | cons hItem _ ih =>
      rw [hCons, hCons']
      refine (hStep _ List.mem_cons_self _ hItem _ _ hStart).bind ?_
      intro next next' hNext
      exact ih (fun other hOther =>
        hStep other (List.mem_cons_of_mem _ hOther)) hNext

end Mirrors

end Compile

end SchemaLang
