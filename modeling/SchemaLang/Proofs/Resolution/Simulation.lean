import SchemaLang.Proofs.Compile.Outcome
import SchemaLang.Proofs.OrderedMap
import SchemaLang.Proofs.Resolution.Machine

/-
  The machine does what the compiler does, as long as the names that
  may still be referred to are those that are not being resolved.

  Main declarations:
    * `Machine.Scope` and `Machine.Scope.Covers`
    * `Machine.Simulates`
    * `Machine.Simulates.bind`
    * `Machine.Simulates.collect`, `Machine.Simulates.collectAll` and
      `Machine.Simulates.pass`
-/

namespace SchemaLang

namespace Machine

variable {α β γ : Type}

------------------------------------------------------------
-- Ends Of Runs
------------------------------------------------------------

/- What a run that has ended goes on with. -/
def andThen
    (next : α → Run β) :
    Except CompileError α × Machine →
      Option (Except CompileError β × Machine)
  | (.ok a, machine) => outcome (next a) machine
  | (.error error, machine) => some (.error error, machine)

@[simp] theorem outcome_pure
    (a : α)
    (machine : Machine) :
    outcome (pure a) machine = some (.ok a, machine) := rfl

@[simp] theorem outcome_throw
    (error : CompileError)
    (machine : Machine) :
    outcome (throw error : Run α) machine =
      some (.error error, machine) := rfl

@[simp] theorem outcome_get
    (machine : Machine) :
    outcome get machine = some (.ok machine, machine) := rfl

@[simp] theorem outcome_push
    (name : String)
    (machine : Machine) :
    outcome (push name) machine =
      some (.ok (),
        { machine with resolving := machine.resolving ++ [name] }) :=
  rfl

@[simp] theorem outcome_define
    (name : String)
    (schema : Schema)
    (machine : Machine) :
    outcome (define name schema) machine =
      some (.ok (),
        { machine with
          registry := machine.registry.define name schema }) :=
  rfl

@[simp] theorem outcome_check
    (result : Except CompileError α)
    (machine : Machine) :
    outcome (check result) machine = some (result, machine) := by
  cases result <;> rfl

theorem outcome_bind
    (run : Run α)
    (next : α → Run β)
    (machine : Machine) :
    outcome (run >>= next) machine =
      (outcome run machine).bind (andThen next) := by
  unfold outcome
  rw [ExceptT.run_bind, StateT.run_bind]
  rcases hRun : (ExceptT.run run).run machine with _ | ⟨result, after⟩
  · rfl
  · cases result <;> rfl

/- A run that is ended by popping a name. -/
theorem outcome_popped
    (run : Run α)
    (machine : Machine) :
    outcome (do
        let result ← run.run
        modify pop
        pure result : StateT Machine Option (Except CompileError α))
        machine =
      (outcome run machine).map fun ended => (ended.1, ended.2.pop) := by
  unfold outcome
  simp only [ExceptT.run, StateT.run_bind]
  rcases StateT.run run machine with _ | ⟨result, after⟩
  · rfl
  · rfl

------------------------------------------------------------
-- Simulation
------------------------------------------------------------

/-
  What holds while an expression is compiled: the names that may
  still be referred to, those that are being resolved, and a bound
  on the size of what is declared.
-/
structure Scope where
  names : List String
  stack : List String
  limit : Nat

/-
  Of the declared names, those that may still be referred to are
  those that are not on the stack.
-/
def Scope.Covers
    (scope : Scope)
    (registry : Registry) : Prop :=
  ∀ name source,
    registry.get? name = some (.source source) →
      sizeOf source ≤ scope.limit ∧
        (name ∈ scope.names ↔ name ∉ scope.stack)

/-
  A run ends as a computation does, with the same names given, and
  leaves the stack as it was.
-/
def EndsAlike
    (scope : Scope)
    (registry : Registry)
    (run : Run α)
    (computation : Compile α) : Prop :=
  ∃ result after,
    Compile.outcome computation registry = (result, after) ∧
      outcome run ⟨registry, scope.stack⟩ =
        some (result, ⟨after, scope.stack⟩) ∧
      scope.Covers after

/- A run ends as a computation does, whatever names are given. -/
def Simulates
    (scope : Scope)
    (run : Run α)
    (computation : Compile α) : Prop :=
  ∀ registry, scope.Covers registry →
    EndsAlike scope registry run computation

variable {scope : Scope}

/- A name that is defined is no longer declared. -/
theorem Scope.Covers.define
    {registry : Registry}
    (hCovers : scope.Covers registry)
    (name : String)
    (schema : Schema) :
    scope.Covers (registry.define name schema) := by
  intro other source hOther
  unfold Registry.define at hOther
  rw [OrderedMap.get?_insert] at hOther
  split at hOther
  · cases hOther
  · exact hCovers other source hOther

namespace Simulates

theorem pure
    (a : α) :
    Simulates scope (Pure.pure a) (Pure.pure a) :=
  fun registry hCovers =>
    ⟨.ok a, registry, rfl, rfl, hCovers⟩

theorem throw
    (error : CompileError) :
    Simulates scope (MonadExcept.throw error : Run α)
      (MonadExcept.throw error) :=
  fun registry hCovers =>
    ⟨.error error, registry, rfl, rfl, hCovers⟩

theorem fail
    (cause : Cause)
    (span : Span) :
    Simulates scope (Machine.fail cause span : Run α)
      (Compile.fail cause span) :=
  throw ⟨cause, span⟩

theorem check
    (result : Except CompileError α) :
    Simulates scope (Machine.check result)
      (Compile.check result) := by
  cases result with
  | ok a => exact pure a
  | error error => exact throw error

theorem define
    (name : String)
    (schema : Schema) :
    Simulates scope (Machine.define name schema)
      (Compile.define name schema) :=
  fun registry hCovers =>
    ⟨.ok (), registry.define name schema, rfl, rfl,
      hCovers.define name schema⟩

theorem bind
    {run : Run α}
    {computation : Compile α}
    {next : α → Run β}
    {later : α → Compile β}
    (hFirst : Simulates scope run computation)
    (hNext : ∀ a, Simulates scope (next a) (later a)) :
    Simulates scope (run >>= next) (computation >>= later) := by
  intro registry hCovers
  rcases hFirst registry hCovers with
    ⟨result, after, hComputation, hRun, hAfter⟩
  unfold EndsAlike
  rw [Compile.outcome_bind, outcome_bind, hComputation, hRun]
  cases result with
  | error error =>
      exact ⟨.error error, after, rfl, rfl, hAfter⟩
  | ok a => exact hNext a after hAfter

/- A run may go on with the machine as a computation with the names. -/
theorem read
    {next : Machine → Run α}
    {later : Registry → Compile α}
    (hNext :
      ∀ registry, scope.Covers registry →
        EndsAlike scope registry (next ⟨registry, scope.stack⟩)
          (later registry)) :
    Simulates scope (get >>= next) (get >>= later) := by
  intro registry hCovers
  unfold EndsAlike
  rw [Compile.outcome_bind, outcome_bind]
  exact hNext registry hCovers

theorem register
    (name : String)
    (comments : List Comment)
    (schema : Schema) :
    Simulates scope (Machine.register name comments schema)
      (Compile.register name comments schema) :=
  bind (define name _) fun _ => pure _

------------------------------------------------------------
-- Loops
------------------------------------------------------------

variable {ι κ : Type}

/-
  A loop that collects what its steps give for some of the items
  does what a function does that goes through the items by itself.
-/
theorem collect
    {pick : ι → Option κ}
    {step : κ → Run α}
    (each : κ → Compile α)
    (through : List ι → Compile (List α))
    {items : List ι}
    (hNil : through [] = Pure.pure [])
    (hSkip :
      ∀ item rest, pick item = none →
        through (item :: rest) = through rest)
    (hTake :
      ∀ item picked rest, pick item = some picked →
        through (item :: rest) = do
          let first ← each picked
          let others ← through rest
          Pure.pure (first :: others))
    (hEach :
      ∀ item ∈ items, ∀ picked, pick item = some picked →
        Simulates scope (step picked) (each picked)) :
    Simulates scope ((items.filterMap pick).mapM step)
      (through items) := by
  induction items with
  | nil =>
      rw [hNil]
      exact pure []
  | cons item rest ih =>
      have hRest := ih fun other hOther =>
        hEach other (List.mem_cons_of_mem _ hOther)
      cases hPick : pick item with
      | none =>
          rw [List.filterMap_cons_none hPick, hSkip item rest hPick]
          exact hRest
      | some picked =>
          rw [List.filterMap_cons_some hPick, List.mapM_cons,
            hTake item picked rest hPick]
          refine (hEach item (by simp) picked hPick).bind fun first => ?_
          exact hRest.bind fun others => pure _

/- A loop that collects what its steps give for all of the items. -/
theorem collectAll
    {step : ι → Run α}
    (each : ι → Compile α)
    (through : List ι → Compile (List α))
    {items : List ι}
    (hNil : through [] = Pure.pure [])
    (hCons :
      ∀ item rest,
        through (item :: rest) = do
          let first ← each item
          let others ← through rest
          Pure.pure (first :: others))
    (hEach :
      ∀ item ∈ items, Simulates scope (step item) (each item)) :
    Simulates scope (items.mapM step) (through items) := by
  have hLoop :
      Simulates scope ((items.filterMap some).mapM step)
        (through items) := by
    apply collect each through hNil
    · intro item rest hNone
      cases hNone
    · rintro item picked rest ⟨⟩
      exact hCons item rest
    · rintro item hItem picked ⟨⟩
      exact hEach item hItem
  rwa [List.filterMap_some] at hLoop

/-
  A loop that passes a value from step to step does what a function
  does that goes through the items by itself.
-/
theorem pass
    {step : β → ι → Run β}
    (each : β → ι → Compile β)
    (through : β → List ι → Compile β)
    {items : List ι}
    (hNil : ∀ b, through b [] = Pure.pure b)
    (hCons :
      ∀ b item rest,
        through b (item :: rest) = do
          let next ← each b item
          through next rest)
    (hEach :
      ∀ item ∈ items, ∀ b,
        Simulates scope (step b item) (each b item))
    (start : β) :
    Simulates scope (items.foldlM step start)
      (through start items) := by
  induction items generalizing start with
  | nil =>
      rw [hNil]
      exact pure start
  | cons item rest ih =>
      rw [List.foldlM_cons, hCons]
      refine (hEach item (by simp) start).bind fun next => ?_
      exact ih (fun other hOther =>
        hEach other (List.mem_cons_of_mem _ hOther)) next

end Simulates

end Machine

end SchemaLang
