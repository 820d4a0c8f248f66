import Mathlib.Tactic.Common
import SchemaLang.Compile.Basic

/-
  Running the computations of the compiler, and computations that
  yield a result without naming a schema.

  Main declarations:
    * `Compile.outcome`
    * `Compile.outcome_bind` and `Compile.andThen_eq_ok`
    * `Compile.Yields`
-/

namespace SchemaLang

namespace Compile

variable {α β : Type}

/- The result of a computation and the names given behind it. -/
def outcome
    (computation : Compile α)
    (registry : Registry) : Except CompileError α × Registry :=
  (ExceptT.run computation).run registry

/- What a computation that has ended goes on with. -/
def andThen
    (next : α → Compile β) :
    Except CompileError α × Registry → Except CompileError β × Registry
  | (.ok a, registry) => outcome (next a) registry
  | (.error error, registry) => (.error error, registry)

@[simp] theorem outcome_pure
    (a : α)
    (registry : Registry) :
    outcome (pure a) registry = (.ok a, registry) := rfl

@[simp] theorem outcome_throw
    (error : CompileError)
    (registry : Registry) :
    outcome (throw error : Compile α) registry =
      (.error error, registry) := rfl

@[simp] theorem outcome_fail
    (cause : Cause)
    (span : Span)
    (registry : Registry) :
    outcome (fail cause span : Compile α) registry =
      (.error ⟨cause, span⟩, registry) := rfl

@[simp] theorem outcome_get
    (registry : Registry) :
    outcome get registry = (.ok registry, registry) := rfl

@[simp] theorem outcome_define
    (name : String)
    (schema : Schema)
    (registry : Registry) :
    outcome (define name schema) registry =
      (.ok (), registry.define name schema) := rfl

@[simp] theorem outcome_check
    (result : Except CompileError α)
    (registry : Registry) :
    outcome (check result) registry = (result, registry) := by
  cases result <;> rfl

theorem outcome_bind
    (computation : Compile α)
    (next : α → Compile β)
    (registry : Registry) :
    outcome (computation >>= next) registry =
      andThen next (outcome computation registry) := by
  rcases hRun : outcome computation registry with ⟨result, after⟩
  have hState :
      StateT.run (ExceptT.run computation) registry =
        (result, after) := hRun
  simp only [outcome, ExceptT.run_bind, StateT.run_bind, hState]
  cases result <;> rfl

/- What goes on to a result has had one before. -/
theorem andThen_eq_ok
    {next : α → Compile β}
    {ended : Except CompileError α × Registry}
    {b : β}
    {after : Registry}
    (hEnds : andThen next ended = (.ok b, after)) :
    ∃ a between,
      ended = (.ok a, between) ∧
        outcome (next a) between = (.ok b, after) := by
  rcases ended with ⟨result, between⟩
  cases result with
  | error error => cases hEnds
  | ok a => exact ⟨a, between, rfl, hEnds⟩

------------------------------------------------------------
-- Results Without New Names
------------------------------------------------------------

/- A computation ends with a result, and the names stay as they are. -/
def Yields
    (registry : Registry)
    (computation : Compile α)
    (a : α) : Prop :=
  outcome computation registry = (.ok a, registry)

namespace Yields

variable {registry : Registry}

theorem pure
    (a : α) :
    Yields registry (Pure.pure a) a := rfl

theorem check
    {result : Except CompileError α}
    {a : α}
    (hOk : result = .ok a) :
    Yields registry (Compile.check result) a := by
  simp [Yields, hOk]

theorem bind
    {computation : Compile α}
    {next : α → Compile β}
    {a : α}
    {b : β}
    (hFirst : Yields registry computation a)
    (hNext : Yields registry (next a) b) :
    Yields registry (computation >>= next) b := by
  unfold Yields at hFirst hNext ⊢
  rw [outcome_bind, hFirst]
  exact hNext

end Yields

end Compile

end SchemaLang
