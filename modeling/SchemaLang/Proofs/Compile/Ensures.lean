import SchemaLang.Proofs.Compile.Outcome

/-
  What a computation of the compiler ensures: from names that fit it
  ends with names that fit, and its result, if it has one, is good.

  Main declarations:
    * `Compile.Ensures`
    * `Compile.Ensures.bind`
    * `Compile.Ensures.pass`
-/

namespace SchemaLang

namespace Compile

variable {α β : Type}

/- Names fit at the end as well, and a result is good. -/
def Ensures
    (fits : Registry → Prop)
    (good : α → Prop)
    (computation : Compile α) : Prop :=
  ∀ before, fits before →
    fits (outcome computation before).2 ∧
      ∀ a, (outcome computation before).1 = .ok a → good a

namespace Ensures

variable {fits : Registry → Prop}
variable {good : α → Prop}
variable {good' : β → Prop}

theorem pure
    {a : α}
    (hGood : good a) :
    Ensures fits good (Pure.pure a) := by
  intro before hFits
  refine ⟨hFits, ?_⟩
  intro _ hSame
  cases hSame
  exact hGood

/- Of any registry and any result, nothing need be known. -/
theorem unknown
    (computation : Compile α) :
    Ensures (fun _ => True) (fun _ => True) computation :=
  fun _ _ => ⟨trivial, fun _ _ => trivial⟩

theorem throw
    (error : CompileError) :
    Ensures fits good (MonadExcept.throw error) := by
  intro before hFits
  refine ⟨hFits, ?_⟩
  intro _ hSame
  cases hSame

theorem fail
    (cause : Cause)
    (span : Span) :
    Ensures fits good (Compile.fail cause span) :=
  throw ⟨cause, span⟩

theorem check
    {result : Except CompileError α}
    (hGood : ∀ a, result = .ok a → good a) :
    Ensures fits good (Compile.check result) := by
  intro before hFits
  rw [outcome_check]
  exact ⟨hFits, hGood⟩

theorem bind
    {computation : Compile α}
    {next : α → Compile β}
    (hFirst : Ensures fits good computation)
    (hNext : ∀ a, good a → Ensures fits good' (next a)) :
    Ensures fits good' (computation >>= next) := by
  intro before hFits
  have hEnds := hFirst before hFits
  rw [outcome_bind]
  generalize outcome computation before = ended at hEnds ⊢
  rcases ended with ⟨result, between⟩
  cases result with
  | error error =>
      refine ⟨hEnds.1, ?_⟩
      intro _ hSame
      cases hSame
  | ok a => exact hNext a (hEnds.2 a rfl) between hEnds.1

/- A step that only fails is passed with what it has checked. -/
theorem checked
    {result : Except CompileError α}
    {next : α → Compile β}
    (hNext : ∀ a, result = .ok a → Ensures fits good' (next a)) :
    Ensures fits good' (Compile.check result >>= next) :=
  (check fun _ hOk => hOk).bind hNext

theorem mono
    {better : α → Prop}
    {computation : Compile α}
    (hEnsures : Ensures fits better computation)
    (hGood : ∀ a, better a → good a) :
    Ensures fits good computation :=
  fun before hFits =>
    ⟨(hEnsures before hFits).1,
      fun a hOk => hGood a ((hEnsures before hFits).2 a hOk)⟩

/- A name may be given if names still fit with it. -/
theorem define
    {name : String}
    {schema : Schema}
    (hDefine :
      ∀ before, fits before → fits (before.define name schema)) :
    Ensures fits (fun _ => True) (Compile.define name schema) :=
  fun before hFits => ⟨hDefine before hFits, fun _ _ => trivial⟩

/- What goes on with the names that are there may rely on them. -/
theorem read
    {next : Registry → Compile α}
    (hNext :
      ∀ registry, fits registry → Ensures fits good (next registry)) :
    Ensures fits good (get >>= next) := by
  intro before hFits
  rw [outcome_bind]
  exact hNext before hFits before hFits

/- A loop ensures of the value that it passes on what its steps do. -/
theorem pass {ι : Type}
    (step : α → ι → Compile α)
    {through : α → List ι → Compile α}
    {items : List ι}
    (hNil : ∀ a, through a [] = Pure.pure a)
    (hCons :
      ∀ a item rest,
        through a (item :: rest) =
          step a item >>= fun next => through next rest)
    (hStep :
      ∀ item ∈ items, ∀ a, good a → Ensures fits good (step a item))
    {start : α}
    (hStart : good start) :
    Ensures fits good (through start items) := by
  induction items generalizing start with
  | nil =>
      rw [hNil]
      exact pure hStart
  | cons item rest ih =>
      rw [hCons]
      refine (hStep item List.mem_cons_self start hStart).bind ?_
      intro next hNext
      exact ih (fun other hOther =>
        hStep other (List.mem_cons_of_mem _ hOther)) hNext

end Ensures

end Compile

end SchemaLang
