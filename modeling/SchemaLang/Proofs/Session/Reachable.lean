import Mathlib.Logic.Relation
import SchemaLang.Proofs.Compile.Runs
import SchemaLang.Proofs.Compile.Upholding
import SchemaLang.Proofs.Session.Comments
import SchemaLang.Proofs.Session.Declaring
import SchemaLang.Proofs.Session.Lazy

/-
  The sessions that come about when allowed expressions are compiled and
  declared, one after the other. They keep to a standard, if what is
  allowed may be compiled under it.

  Main declarations:
    * `Session.Step` and `Session.Reachable`
    * `Session.value_mem_parts`
    * `Session.met_compileTree`
    * `Session.Reachable.keeps` and `Session.Reachable.met`
-/

namespace SchemaLang

------------------------------------------------------------
-- Sessions
------------------------------------------------------------

namespace Session

open Compile (outcome)

/- An allowed expression is compiled or declared. -/
inductive Step
    (allowed : Expr → Prop) : Session → Session → Prop
  | compiled
      {session : Session}
      (e : Expr)
      (hAllowed : allowed e) :
      Step allowed session (session.compileTree e).2
  | declared
      {session after : Session}
      (e : Expr)
      (hAllowed : allowed e)
      (hDeclares : session.declareTree e = .ok after) :
      Step allowed session after

/- A session that comes about from a new one by such steps. -/
def Reachable
    (version : Version)
    (allowed : Expr → Prop)
    (session : Session) : Prop :=
  Relation.ReflTransGen (Step allowed)
    { compiler := { version := version } } session

/- What a name is declared to be is within the expression. -/
theorem value_mem_parts
    {e target value : Expr}
    (hNaming : naming? e = some (target, value)) :
    value ∈ e.parts := by
  unfold naming? at hNaming
  split at hNaming
  · cases hNaming
    simp [Expr.self_mem_parts]
  · cases hNaming
    simp [Expr.self_mem_parts]
  · cases hNaming
    simp [Expr.self_mem_parts]
  · cases hNaming

variable {version : Version}
variable {allowed : Expr → Prop}
variable {standard : Standard}
variable {session after : Session}

/- What is compiled is up to a standard, and so are the names then. -/
theorem met_compileTree
    (hAdmitted :
      ∀ e, allowed e → ∀ part ∈ e.parts,
        standard.Admits session.compiler part)
    (hKeeps : session.registry.Keeps standard allowed)
    {e : Expr}
    (hAllowed : allowed e) :
    (session.compileTree e).2.registry.Keeps standard allowed ∧
      ∀ schema, (session.compileTree e).1 = .ok schema →
        standard.Met schema := by
  rcases hOutcome :
      outcome (Compile.compile session.compiler e) session.registry with
    ⟨result, registry⟩
  have hEnds :=
    (Compile.upheld_of_keeps hAdmitted session.registry.declaredNames
      hAllowed).compiled session.registry hKeeps
  rw [← Compile.outcome_compile, hOutcome] at hEnds
  rw [compileTree_of_outcome hOutcome]
  cases result with
  | error error => exact ⟨hKeeps, nofun⟩
  | ok schema =>
      refine ⟨hEnds.1, ?_⟩
      intro _ hSame
      cases hSame
      exact (hEnds.2 schema rfl).describe _

theorem compiler_compileTree
    (session : Session)
    (e : Expr) :
    (session.compileTree e).2.compiler = session.compiler := by
  rcases hOutcome :
      outcome (Compile.compile session.compiler e) session.registry with
    ⟨result, registry⟩
  rw [compileTree_of_outcome hOutcome]
  cases result with
  | error error => rfl
  | ok schema => rfl

/- The compiler is as it was at first, and names keep to a standard. -/
structure KeepsTo
    (version : Version)
    (standard : Standard)
    (allowed : Expr → Prop)
    (session : Session) : Prop where
  compiler : session.compiler = { version := version }
  registry : session.registry.Keeps standard allowed

theorem KeepsTo.step
    (hAdmitted :
      ∀ e, allowed e → ∀ part ∈ e.parts,
        standard.Admits { version := version } part)
    (hWithin : ∀ e part, allowed e → part ∈ e.parts → allowed part)
    (hKeeps : session.KeepsTo version standard allowed)
    (hStep : Step allowed session after) :
    after.KeepsTo version standard allowed := by
  cases hStep with
  | compiled e hAllowed =>
      refine ⟨(compiler_compileTree session e).trans hKeeps.compiler, ?_⟩
      rw [← hKeeps.compiler] at hAdmitted
      exact (met_compileTree hAdmitted hKeeps.registry hAllowed).1
  | declared e hAllowed hDeclares =>
      cases hNaming : naming? e with
      | none =>
          rw [declareTree_of_naming?_eq_none hNaming] at hDeclares
          cases hDeclares
          exact hKeeps
      | some pair =>
          rcases (declareTree_eq_ok_iff hNaming session after).mp
              hDeclares with ⟨name, -, rfl⟩
          refine ⟨hKeeps.compiler, fun other entry hGet => ?_⟩
          rw [Registry.get?_declare] at hGet
          split at hGet
          · cases hGet
            exact hWithin e _ hAllowed (value_mem_parts hNaming)
          · exact hKeeps.registry other entry hGet

/- The induction is on the steps from a new session. -/
theorem Reachable.keeps
    (hAdmitted :
      ∀ e, allowed e → ∀ part ∈ e.parts,
        standard.Admits { version := version } part)
    (hWithin : ∀ e part, allowed e → part ∈ e.parts → allowed part)
    (hReachable : Reachable version allowed session) :
    session.KeepsTo version standard allowed := by
  induction hReachable with
  | refl => exact ⟨rfl, Registry.keeps_initial standard allowed⟩
  | tail _ hStep ih => exact ih.step hAdmitted hWithin hStep

/- So what a session has compiled or compiles next is up to it. -/
theorem Reachable.met
    (hAdmitted :
      ∀ e, allowed e → ∀ part ∈ e.parts,
        standard.Admits { version := version } part)
    (hWithin : ∀ e part, allowed e → part ∈ e.parts → allowed part)
    (hReachable : Reachable version allowed session) :
    (∀ name schema,
      session.registry.get? name = some (.compiled schema) →
        standard.Met schema) ∧
      ∀ e schema after, allowed e →
        session.compileTree e = (.ok schema, after) →
          standard.Met schema := by
  have hKeeps := hReachable.keeps hAdmitted hWithin
  refine ⟨fun name schema hGet => hKeeps.registry name _ hGet, ?_⟩
  intro e schema after hAllowed hEnds
  rw [← hKeeps.compiler] at hAdmitted
  exact (met_compileTree hAdmitted hKeeps.registry hAllowed).2 schema
    (congrArg Prod.fst hEnds)

end Session

end SchemaLang
