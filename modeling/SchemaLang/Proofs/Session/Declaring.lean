import SchemaLang.Proofs.Compile.Naming
import SchemaLang.Session

/-
  Which expressions are declared, beside which expressions give a
  name when they are compiled. All that give a name are declared. So
  are some that do not: assignments that are also operations, and
  functions with several parameters.

  Main declarations:
    * `Expr.Gives`
    * `Expr.OnlyDeclares`
    * `Session.naming?_eq_some_iff`
    * `Session.declareTree_changes_iff`
-/

namespace SchemaLang

------------------------------------------------------------
-- Names And Values
------------------------------------------------------------

namespace Expr

/-
  An expression gives its target a value: it is an assignment, a
  function with a single parameter, or a function without one whose
  body is an assignment.
-/
inductive Gives : Expr → Expr → Expr → Prop
  | assigned
      (target value : Expr)
      (note : Note) :
      Gives ⟨.assignment .assign target value, note⟩ target value
  | parameter
      (param body : Expr)
      (note : Note) :
      Gives ⟨.arrow [param] body, note⟩ param body
  | returned
      (target value : Expr)
      (inner note : Note) :
      Gives ⟨.arrow [] ⟨.assignment .assign target value, inner⟩, note⟩
        target value

/-
  An expression does not give its target the value, but is declared
  as if it did: the assignment is also an operation, or the target is
  the first of several parameters.
-/
inductive OnlyDeclares : Expr → Expr → Expr → Prop
  | updated
      (spelling : String)
      (target value : Expr)
      (note : Note) :
      OnlyDeclares
        ⟨.assignment (.compound spelling) target value, note⟩ target value
  | parameters
      (first second : Expr)
      (others : List Expr)
      (body : Expr)
      (note : Note) :
      OnlyDeclares ⟨.arrow (first :: second :: others) body, note⟩ first
        body
  | returned
      (spelling : String)
      (target value : Expr)
      (inner note : Note) :
      OnlyDeclares
        ⟨.arrow [] ⟨.assignment (.compound spelling) target value, inner⟩,
          note⟩ target value

end Expr

------------------------------------------------------------
-- Compiling
------------------------------------------------------------

namespace Compile

variable {compiler : Compiler}
variable {registry : Registry}
variable {e target value : Expr}

/- If it is compiled, the target names what it is compiled to. -/
theorem get?_of_gives
    (hGives : e.Gives target value)
    {name : String}
    (hName : target.referenceName = .ok name)
    {schema : Schema}
    {after : Registry}
    (hCompiled :
      outcome (compile compiler e) registry = (.ok schema, after)) :
    after.get? name = some (.compiled schema) := by
  cases hGives with
  | assigned target value note =>
      rw [outcome_compile_assignment hName] at hCompiled
      exact get?_of_register hCompiled
  | parameter param body note =>
      rw [outcome_compile_parameter hName] at hCompiled
      exact get?_of_register hCompiled
  | returned target value inner note =>
      rw [outcome_compile_body (by simp),
        outcome_compile_assignment hName] at hCompiled
      exact get?_of_register hCompiled

/- Either it is refused, or it is compiled as the value alone. -/
theorem outcome_of_onlyDeclares
    (hOnly : e.OnlyDeclares target value)
    (compiler : Compiler)
    (registry : Registry) :
    (∃ spelling span,
      outcome (compile compiler e) registry =
        (.error ⟨.assignOperator (.compound spelling), span⟩,
          registry)) ∨
      outcome (compile compiler e) registry =
        outcome (compile compiler value) registry := by
  cases hOnly with
  | updated spelling target value note =>
      exact .inl ⟨spelling, note.span, outcome_compile_compound ..⟩
  | parameters first second others body note =>
      exact .inr (outcome_compile_body (by simp) value note)
  | returned spelling target value inner note =>
      refine .inl ⟨spelling, inner.span, ?_⟩
      rw [outcome_compile_body (by simp), outcome_compile_compound]

end Compile

------------------------------------------------------------
-- Declaring
------------------------------------------------------------

namespace Session

open Compile

theorem naming?_eq_some_iff
    (e target value : Expr) :
    naming? e = some (target, value) ↔
      e.Gives target value ∨ e.OnlyDeclares target value := by
  constructor
  · intro hNaming
    unfold naming? at hNaming
    split at hNaming
    · rename_i op first body note
      cases hNaming
      cases op with
      | assign => exact .inl (.assigned ..)
      | compound spelling => exact .inr (.updated ..)
    · rename_i param others body note
      cases hNaming
      cases others with
      | nil => exact .inl (.parameter ..)
      | cons second others => exact .inr (.parameters ..)
    · rename_i op first body inner note
      cases hNaming
      cases op with
      | assign => exact .inl (.returned ..)
      | compound spelling => exact .inr (.returned ..)
    · cases hNaming
  · rintro (hGives | hOnly)
    · cases hGives <;> rfl
    · cases hOnly <;> rfl

/- Where there is no name and value, nothing is declared. -/
theorem declareTree_of_naming?_eq_none
    {e : Expr}
    (hNone : naming? e = none)
    (session : Session) :
    session.declareTree e = .ok session := by
  rw [declareTree, hNone]

/- Else the target has a name, and this is declared. -/
theorem declareTree_eq_ok_iff
    {e target value : Expr}
    (hNaming : naming? e = some (target, value))
    (session after : Session) :
    session.declareTree e = .ok after ↔
      ∃ name,
        target.referenceName = .ok name ∧
          after =
            { session with
              registry := session.registry.declare name value } := by
  rw [declareTree, hNaming]
  dsimp only
  cases target.referenceName with
  | error error =>
      constructor
      · intro hOk
        cases hOk
      · rintro ⟨name, hOk, -⟩
        cases hOk
  | ok name =>
      constructor
      · intro hOk
        cases hOk
        exact ⟨name, rfl, rfl⟩
      · rintro ⟨other, hOther, rfl⟩
        cases hOther
        rfl

/- Names change exactly if a name is declared as something new. -/
theorem registry_ne_iff
    {session after : Session}
    {e : Expr}
    (hDeclared : session.declareTree e = .ok after) :
    after.registry ≠ session.registry ↔
      ∃ target value name,
        (e.Gives target value ∨ e.OnlyDeclares target value) ∧
          target.referenceName = .ok name ∧
          session.registry.get? name ≠ some (.source value) ∧
          after.registry = session.registry.declare name value := by
  constructor
  · intro hChanged
    cases hNaming : naming? e with
    | none =>
        rw [declareTree_of_naming?_eq_none hNaming] at hDeclared
        cases hDeclared
        exact absurd rfl hChanged
    | some named =>
        rcases named with ⟨target, value⟩
        rcases (declareTree_eq_ok_iff hNaming session after).mp
            hDeclared with ⟨name, hName, rfl⟩
        refine ⟨target, value, name,
          (naming?_eq_some_iff e target value).mp hNaming, hName, ?_, rfl⟩
        intro hSame
        exact hChanged (OrderedMap.insert_eq_self_iff.mpr hSame)
  · rintro ⟨target, value, name, -, -, hNew, hAfter⟩ hSame
    exact hNew (OrderedMap.insert_eq_self_iff.mp (hAfter.symm.trans hSame))

/-
  Declaring an expression changes what is named exactly if it gives a
  name or is declared only, and the name does not stand for the value
  already. If the first is compiled, it gives the name; the second is
  refused, or compiled as the value alone.
-/
theorem declareTree_changes_iff
    (session : Session)
    (e : Expr) :
    (∀ after, session.declareTree e = .ok after →
      (after.registry ≠ session.registry ↔
        ∃ target value name,
          (e.Gives target value ∨ e.OnlyDeclares target value) ∧
            target.referenceName = .ok name ∧
            session.registry.get? name ≠ some (.source value) ∧
            after.registry = session.registry.declare name value)) ∧
      (∀ target value name schema registry,
        e.Gives target value → target.referenceName = .ok name →
          outcome (compile session.compiler e) session.registry =
              (.ok schema, registry) →
            registry.get? name = some (.compiled schema)) ∧
      ∀ target value,
        e.OnlyDeclares target value →
          (∃ spelling span,
            outcome (compile session.compiler e) session.registry =
              (.error ⟨.assignOperator (.compound spelling), span⟩,
                session.registry)) ∨
            outcome (compile session.compiler e) session.registry =
              outcome (compile session.compiler value)
                session.registry := by
  refine ⟨?_, ?_, ?_⟩
  · intro after hDeclared
    exact registry_ne_iff hDeclared
  · intro target value name schema registry hGives hName hCompiled
    exact get?_of_gives hGives hName hCompiled
  · intro target value hOnly
    exact outcome_of_onlyDeclares hOnly session.compiler session.registry

/- `A += int` -/
def updating : Expr :=
  ⟨.assignment (.compound "+=") ⟨.identifier "A", {}⟩
    ⟨.identifier "int", {}⟩, {}⟩

/- `(B, C) => int` -/
def choosing : Expr :=
  ⟨.arrow [⟨.identifier "B", {}⟩, ⟨.identifier "C", {}⟩]
    ⟨.identifier "int", {}⟩, {}⟩

/- Names change, though neither expression gives one. -/
theorem declareTree_changes_without_giving :
    ((∃ after,
      declareTree {} updating = .ok after ∧
        after.registry ≠ Registry.initial) ∧
        ¬ ∃ target value, updating.Gives target value) ∧
      (∃ after,
        declareTree {} choosing = .ok after ∧
          after.registry ≠ Registry.initial) ∧
        ¬ ∃ target value, choosing.Gives target value := by
  refine ⟨⟨⟨_, rfl, ?_⟩, ?_⟩, ⟨_, rfl, ?_⟩, ?_⟩
  · intro hSame
    cases OrderedMap.insert_eq_self_iff.mp hSame
  · rintro ⟨target, value, hGives⟩
    cases hGives
  · intro hSame
    cases OrderedMap.insert_eq_self_iff.mp hSame
  · rintro ⟨target, value, hGives⟩
    cases hGives

/-
  Declaring `() => A = int` changes what is named, and compiling it
  gives the name `A`. Declaring `(B, C) => int` changes it as well,
  but it is compiled as `int`.
-/
theorem declareTree_changes_iff_returned :
    let int : Expr := ⟨.identifier "int", {}⟩
    let returned : Expr :=
      ⟨.arrow [] ⟨.assignment .assign ⟨.identifier "A", {}⟩ int, {}⟩, {}⟩
    (∃ after,
      declareTree {} returned = .ok after ∧
        after.registry ≠ Registry.initial) ∧
      (∃ schema registry,
        outcome (compile {} returned) Registry.initial =
            (.ok schema, registry) ∧
          registry.get? "A" = some (.compiled schema)) ∧
      outcome (compile {} choosing) Registry.initial =
        outcome (compile {} int) Registry.initial := by
  intro int returned
  have hReturned := declareTree_changes_iff {} returned
  have hChoosing := declareTree_changes_iff {} choosing
  refine ⟨⟨_, rfl, ?_⟩, ?_, ?_⟩
  · refine (hReturned.1 _ rfl).mpr
      ⟨_, int, "A", .inl (.returned ..), rfl, ?_, rfl⟩
    intro hSame
    cases hSame
  · have hCompiled :
        ∃ schema registry,
          outcome (compile {} returned) Registry.initial =
            (.ok schema, registry) := by
      rw [outcome_compile]
      simp only [returned, int, expr, resolve, outcome_bind,
        outcome_check, andThen, Expr.referenceName]
      exact ⟨_, _, rfl⟩
    rcases hCompiled with ⟨schema, registry, hOutcome⟩
    exact ⟨schema, registry, hOutcome,
      hReturned.2.1 _ int "A" schema registry (.returned ..) rfl hOutcome⟩
  · rcases hChoosing.2.2 _ int (.parameters ..) with
      ⟨spelling, span, hRefused⟩ | hSame
    · rw [choosing, outcome_compile_body (by simp), outcome_compile,
        expr] at hRefused
      cases hRefused
    · exact hSame

end Session

end SchemaLang
