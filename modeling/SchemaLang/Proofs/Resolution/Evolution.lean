import SchemaLang.Proofs.Compile.Traversal
import SchemaLang.Proofs.Resolution.Termination
import SchemaLang.Session

/-
  What compiling may change. Names keep their order, and new ones
  come behind them. What a name stands for only changes to a schema,
  and only if the name is given in the expression or in one that is
  declared. So it is whether compiling succeeds or fails.

  Main declarations:
    * `Registry.GivenBy`
    * `Registry.Evolves`
    * `Compile.evolves_expr`
    * `Compile.compile_evolves`
-/

namespace SchemaLang

------------------------------------------------------------
-- Changes Of Names
------------------------------------------------------------

namespace Registry

/- A name is given in an expression, or in one that is declared. -/
def GivenBy
    (registry : Registry)
    (e : Expr)
    (name : String) : Prop :=
  name ∈ e.given ∨
    ∃ other source,
      registry.get? other = some (.source source) ∧
        name ∈ source.given

/-
  Names keep their order, and what a name stands for is unchanged,
  or it has become a schema and the name is among the allowed ones.
-/
structure Evolves
    (allowed : String → Prop)
    (before after : Registry) : Prop where
  order : before.keys <+: after.keys
  entries :
    ∀ name,
      after.get? name = before.get? name ∨
        (∃ schema, after.get? name = some (.compiled schema)) ∧
          allowed name

namespace Evolves

variable {allowed : String → Prop}
variable {before after : Registry}

theorem refl
    (registry : Registry) :
    registry.Evolves allowed registry where
  order := List.prefix_refl _
  entries := fun _ => .inl rfl

/- A name that is allowed may be defined. -/
theorem define
    (hEvolves : before.Evolves allowed after)
    {name : String}
    (hAllowed : allowed name)
    (schema : Schema) :
    before.Evolves allowed (after.define name schema) where
  order :=
    hEvolves.order.trans (OrderedMap.keys_prefix_insert _ _ _)
  entries := by
    intro other
    unfold Registry.define
    rw [OrderedMap.get?_insert]
    by_cases hOther : name = other
    · subst hOther
      rw [if_pos rfl]
      exact .inr ⟨⟨schema, rfl⟩, hAllowed⟩
    · rw [if_neg hOther]
      exact hEvolves.entries other

/- No name is ever declared anew. -/
theorem source
    (hEvolves : before.Evolves allowed after)
    {name : String}
    {source : Expr}
    (hSource : after.get? name = some (.source source)) :
    before.get? name = some (.source source) := by
  rcases hEvolves.entries name with hSame | ⟨⟨schema, hSchema⟩, -⟩
  · rw [← hSame]
    exact hSource
  · rw [hSource] at hSchema
    cases hSchema

end Evolves

end Registry

------------------------------------------------------------
-- Compiling
------------------------------------------------------------

namespace Compile

/- Names have evolved, and are the same in both runs. -/
def Evolving
    (start : Registry)
    (allowed : String → Prop)
    (before before' : Registry) : Prop :=
  before' = before ∧ start.Evolves allowed before

/- One run beside itself, on an expression that gives allowed names. -/
theorem lockstep_evolving
    (start : Registry)
    (allowed : String → Prop)
    (hDeclared :
      ∀ other source, start.get? other = some (.source source) →
        ∀ name ∈ source.given, allowed name) :
    Lockstep (Evolving start allowed) .all fun names names' e =>
      names' = names ∧ ∀ name ∈ e.given, allowed name where
  denoted := by
    rintro names _ e ⟨rfl, -⟩ name - before _ ⟨rfl, hEvolves⟩
    refine .inr ⟨rfl, fun source hSource => ⟨Iff.rfl, rfl, ?_⟩⟩
    exact hDeclared name source (hEvolves.source hSource)
  given := by
    rintro names _ e ⟨-, hGiven⟩ name hName schema before _
      ⟨rfl, hEvolves⟩
    exact ⟨rfl, hEvolves.define (hGiven name hName) schema⟩

/- Names evolve, whichever of them may still be referred to. -/
theorem evolves_expr
    {compiler : Compiler}
    (hSilent : compiler.IsSilent)
    (names : List String)
    (registry : Registry)
    (e : Expr) :
    registry.Evolves (registry.GivenBy e)
      (outcome (expr compiler (expandWithin compiler names) e)
        registry).2 := by
  have hLockstep :=
    lockstep_evolving registry (registry.GivenBy e)
      fun other source hSource name hName =>
        .inr ⟨other, source, hSource, hName⟩
  have hAlike :
      Alike compiler (expandWithin compiler names)
        (expandWithin compiler names)
        (Evolving registry (registry.GivenBy e)) .all e :=
    hLockstep.alike hSilent ⟨rfl, fun name hName => .inl hName⟩
  rcases hAlike.compiled registry registry ⟨rfl, .refl registry⟩ _ _ rfl
      trivial with ⟨after, -, -, hEvolves⟩
  exact hEvolves

/-
  The machine ends as the compiler does that may refer to all names
  but those being resolved, and these are as they were.
-/
theorem machine_outcome_eq
    (compiler : Compiler)
    (machine : Machine)
    {e : Expr}
    {depth : Nat}
    (hDepth : machine.currentScope.depth e ≤ depth) :
    let ended :=
      outcome (expr compiler (expandWithin compiler machine.free) e)
        machine.registry
    Machine.outcome ((Machine.atDepth compiler depth).compile e)
        machine =
      some (ended.1, ⟨ended.2, machine.resolving⟩) := by
  have hAgrees :=
    Machine.agrees_atDepth compiler machine.nodup_currentScope hDepth
  rcases hAgrees.compiled _ machine.covers_currentScope with
    ⟨result, after, hComputation, hRun, -⟩
  have hEnded :
      outcome (expr compiler (expandWithin compiler machine.free) e)
        machine.registry = (result, after) := hComputation
  rw [hEnded]
  exact hRun

/-
  Names evolve when an expression is compiled, whether this succeeds
  or fails. The machine does so from any names that are being
  resolved, and leaves them as they were. A session takes all names
  back if compiling fails.
-/
theorem compile_evolves
    (version : Version)
    (e : Expr) :
    (∀ registry : Registry,
      registry.Evolves (registry.GivenBy e)
        (outcome (compile { version := version } e) registry).2) ∧
      (∀ machine : Machine, ∃ result after,
        machine.registry.Evolves (machine.registry.GivenBy e) after ∧
          ∀ depth, machine.currentScope.depth e ≤ depth →
            Machine.outcome
                ((Machine.atDepth { version := version }
                  depth).compile e) machine =
              some (result, ⟨after, machine.resolving⟩)) ∧
      ∀ session error after,
        Session.compileTree session e = (.error error, after) →
          after.registry = session.registry := by
  have hSilent := Compiler.isSilent_builtin version
  refine ⟨fun registry => ?_, fun machine => ?_, ?_⟩
  · rw [outcome_compile]
    exact evolves_expr hSilent _ registry e
  · refine ⟨_, _, ?_, fun depth hDepth =>
      machine_outcome_eq { version := version } machine hDepth⟩
    exact evolves_expr hSilent _ machine.registry e
  · intro session error after hFails
    unfold Session.compileTree at hFails
    split at hFails
    · cases hFails
    · cases hFails
      rfl

/- The expression `A = {b: (B = int), c: missing}`. -/
def halfNamed : Expr :=
  let refer (name : String) : Expr := ⟨.identifier name, {}⟩
  let inner : Expr := ⟨.assignment .assign (refer "B") (refer "int"), {}⟩
  ⟨.assignment .assign (refer "A")
    ⟨.object
      [.property (.identifier "b") false inner {} {},
        .property (.identifier "c") false (refer "missing") {} {}], {}⟩,
    {}⟩

theorem outcome_halfNamed :
    outcome (compile {} halfNamed) Registry.initial =
      (.error ⟨.unknownReference "missing", {}⟩,
        Registry.initial.define "B"
          (.object
            (.of
              [("title", .string "B"), ("type", .string "integer")]))) := by
  rw [outcome_compile]
  unfold halfNamed
  simp only [expr, memberList, propertyInto, resolve, outcome_bind,
    outcome_check, outcome_pure, andThen, Key.propertyName,
    Expr.referenceName]
  rfl

/-
  It fails behind the name `B`, which comes last then, and which is
  given in the expression. A fresh session does not keep the name,
  and a name that is being resolved stays so.
-/
theorem compile_evolves_halfNamed :
    Registry.initial.Evolves (Registry.initial.GivenBy halfNamed)
        (outcome (compile {} halfNamed) Registry.initial).2 ∧
      (outcome (compile {} halfNamed) Registry.initial).2.keys =
        Registry.initial.keys ++ ["B"] ∧
      halfNamed.given = ["A", "B"] ∧
      (∃ depth result after,
        Machine.outcome ((Machine.atDepth {} depth).compile halfNamed)
            ⟨Registry.initial, ["C"]⟩ =
          some (result, ⟨after, ["C"]⟩)) ∧
      ∃ error after,
        Session.compileTree {} halfNamed = (.error error, after) ∧
          after.registry = Registry.initial := by
  have hEvolves := compile_evolves .draft07 halfNamed
  refine ⟨hEvolves.1 Registry.initial, ?_, rfl, ?_, ?_⟩
  · rw [outcome_halfNamed]
    rfl
  · rcases hEvolves.2.1 ⟨Registry.initial, ["C"]⟩ with
      ⟨result, after, -, hEnds⟩
    exact ⟨_, result, after, hEnds _ (Nat.le_refl _)⟩
  · have hFails :
        Session.compileTree {} halfNamed =
          (.error ⟨.unknownReference "missing", {}⟩, {}) := by
      have hOutcome := outcome_halfNamed
      unfold outcome at hOutcome
      simp only [Session.compileTree, Session.run, hOutcome]
    exact ⟨_, _, hFails, hEvolves.2.2 {} _ _ hFails⟩

end Compile

end SchemaLang
