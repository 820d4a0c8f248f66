import SchemaLang.Proofs.Compile.Naming
import SchemaLang.Proofs.OrderedMap
import SchemaLang.Session

/-
  Declaring a name and referring to it later, beside assigning to it
  at once. What is assigned is compiled before its name is known;
  what is declared is compiled when its name is already taken, but
  may not be referred to. If the first succeeds, so does the second,
  with the same schema.

  Main declarations:
    * `Compile.Ahead` and `Compile.lockstep_ahead`
    * `Session.declareTree_compileTree`
-/

namespace SchemaLang

theorem Comments.preferred_eq_nil
    {comments : Comments}
    (hEmpty : comments.isEmpty = true) :
    comments.preferred = [] := by
  unfold isEmpty at hEmpty
  rw [Bool.and_eq_true] at hEmpty
  unfold preferred
  rw [if_pos hEmpty.1]
  exact List.isEmpty_iff.mp hEmpty.2

@[simp]
theorem Schema.describe_nil
    (schema : Schema) :
    schema.describe [] = schema := rfl

------------------------------------------------------------
-- Names In A Registry
------------------------------------------------------------

namespace Registry

variable {registry : Registry}
variable {name : String}

theorem get?_declare
    (registry : Registry)
    (name : String)
    (source : Expr)
    (other : String) :
    (registry.declare name source).get? other =
      if name = other then some (.source source)
      else registry.get? other :=
  OrderedMap.get?_insert _ _ _ _

/- A new name is declared behind all others. -/
theorem declaredNames_declare
    (hNew : registry.get? name = none)
    (source : Expr) :
    (registry.declare name source).declaredNames =
      registry.declaredNames ++ [name] := by
  unfold declare declaredNames
  rw [← OrderedMap.names_toList, ← OrderedMap.names_toList,
    OrderedMap.toList_filter, OrderedMap.toList_filter,
    OrderedMap.insert_of_get?_eq_none hNew]
  simp [Pairs.names, Entry.isSource]

theorem erase_declaredNames_declare
    (hNew : registry.get? name = none)
    (source : Expr) :
    (registry.declare name source).declaredNames.erase name =
      registry.declaredNames := by
  have hAbsent : name ∉ registry.declaredNames := by
    intro hName
    have hKey : name ∈ registry.keys :=
      (registry.keys_filter_sublist _).subset hName
    exact OrderedMap.get?_eq_none_iff.mp hNew hKey
  rw [declaredNames_declare hNew, List.erase_append_right _ hAbsent]
  simp

end Registry

------------------------------------------------------------
-- References
------------------------------------------------------------

namespace Compile

variable {compiler : Compiler}
variable {registry : Registry}
variable {name : String}

/- A reference to a name that has just been declared. -/
theorem outcome_compile_reference
    {reference : Expr}
    (hName : reference.referenceName = .ok name)
    (hNew : registry.get? name = none)
    (value : Expr) :
    outcome (compile compiler reference) (registry.declare name value) =
      andThen (fun schema => pure (titled name schema))
        (outcome
          (expr compiler (expandWithin compiler registry.declaredNames)
            value)
          (registry.declare name value)) := by
  have hEntry :
      (registry.declare name value).get? name =
        some (.source value) := by
    rw [Registry.get?_declare, if_pos rfl]
  have hTaken :
      name ∈ (registry.declare name value).declaredNames := by
    rw [Registry.declaredNames_declare hNew]
    simp
  rw [outcome_compile, expr_eq_resolve hName, resolve, outcome_bind,
    outcome_check, hName, andThen, outcome_bind, outcome_get, andThen]
  simp only [hEntry]
  rw [outcome_bind, expandWithin, dif_pos hTaken]
  dsimp only
  rw [Registry.erase_declaredNames_declare hNew]

------------------------------------------------------------
-- A Name That Is Known Ahead
------------------------------------------------------------

/-
  The second run may know a name that the first one does not know
  yet. All else is the same in both.
-/
def Ahead
    (name : String)
    (before before' : Registry) : Prop :=
  ∀ other,
    before'.get? other = before.get? other ∨
      other = name ∧ before.get? name = none

theorem ahead_declare
    (hNew : registry.get? name = none)
    (source : Expr) :
    Ahead name registry (registry.declare name source) := by
  intro other
  rw [Registry.get?_declare]
  by_cases hName : name = other
  · exact .inr ⟨hName.symm, hNew⟩
  · exact .inl (if_neg hName)

/-
  A run that ends with a result has not referred to the name while it
  was unknown, and once the name is given it is known in both runs.
-/
theorem lockstep_ahead
    (name : String) :
    Lockstep (Ahead name) .results
      (fun names names' _ => names' = names) where
  denoted := by
    intro names names' e hFits other hOther before before' hAhead
    subst hFits
    rcases hAhead other with hSame | ⟨rfl, hNone⟩
    · exact .inr ⟨hSame, fun source hSource => ⟨Iff.rfl, rfl⟩⟩
    · exact .inl ⟨rfl, hNone⟩
  given := by
    intro names names' e hFits given hGiven schema before before' hAhead
      other
    unfold Registry.define
    rw [OrderedMap.get?_insert, OrderedMap.get?_insert,
      OrderedMap.get?_insert]
    by_cases hSame : given = other
    · exact .inl (by rw [if_pos hSame, if_pos hSame])
    · rw [if_neg hSame, if_neg hSame]
      refine (hAhead other).imp_right ?_
      rintro ⟨rfl, hNone⟩
      exact ⟨rfl, by rw [if_neg hSame, hNone]⟩

/-
  What an assignment is compiled to, a reference is compiled to when
  the value has been declared instead.
-/
theorem outcome_reference_of_assignment
    (hSilent : compiler.IsSilent)
    (hNew : registry.get? name = none)
    {target value : Expr}
    {note : Note}
    (hTarget : target.referenceName = .ok name)
    (hNote : note.comments.isEmpty = true)
    {reference : Expr}
    (hReference : reference.referenceName = .ok name)
    {schema : Schema}
    {after : Registry}
    (hCompiled :
      outcome (compile compiler ⟨.assignment .assign target value, note⟩)
        registry = (.ok schema, after)) :
    ∃ later,
      outcome (compile compiler reference)
        (registry.declare name value) = (.ok schema, later) := by
  have hAlike :
      Alike compiler (expandWithin compiler registry.declaredNames)
        (expandWithin compiler registry.declaredNames) (Ahead name)
        .results value :=
    (lockstep_ahead name).alike hSilent rfl
  rw [outcome_compile_assignment hTarget] at hCompiled
  rcases andThen_eq_ok hCompiled with ⟨inner, between, hValue, hNamed⟩
  rcases hAlike.compiled registry (registry.declare name value)
      (ahead_declare hNew value) _ _ hValue rfl with ⟨later, hLater, -⟩
  have hSchema : schema = titled name inner := by
    rw [outcome_register, Comments.preferred_eq_nil hNote,
      Schema.describe_nil] at hNamed
    cases hNamed
    rfl
  refine ⟨later, ?_⟩
  rw [outcome_compile_reference hReference hNew, hLater, andThen,
    outcome_pure, hSchema]

end Compile

------------------------------------------------------------
-- Sessions
------------------------------------------------------------

namespace Session

open Compile

/- Without comments, a schema stays as it has been compiled. -/
theorem compileTree_eq_ok_iff
    (session : Session)
    (e : Expr)
    (hPlain : e.comments.isEmpty = true)
    (schema : Schema) :
    (∃ after, session.compileTree e = (.ok schema, after)) ↔
      ∃ registry,
        outcome (compile session.compiler e) session.registry =
          (.ok schema, registry) := by
  rcases hOutcome :
      outcome (compile session.compiler e) session.registry with
    ⟨result, registry⟩
  unfold outcome at hOutcome
  simp only [compileTree, run, hOutcome, Comments.preferred_eq_nil hPlain]
  cases result with
  | error error => simp
  | ok inner => simp

/-
  Let an assignment without comments, to a name that is not known yet,
  be compiled to a schema. If it is declared instead, then a reference
  to the name without comments is compiled to that schema.
-/
theorem declareTree_compileTree
    (version : Version)
    (registry : Registry)
    (reader : Reader)
    (name : String)
    (hNew : registry.get? name = none)
    (target value : Expr)
    (note : Note)
    (hTarget : target.referenceName = .ok name)
    (hNote : note.comments.isEmpty = true)
    (reference : Expr)
    (hReference : reference.referenceName = .ok name)
    (hPlain : reference.comments.isEmpty = true)
    (schema : Schema)
    (after : Session)
    (hCompiled :
      compileTree ⟨{ version := version }, registry, reader⟩
          ⟨.assignment .assign target value, note⟩ =
        (.ok schema, after)) :
    ∃ declared later,
      declareTree ⟨{ version := version }, registry, reader⟩
          ⟨.assignment .assign target value, note⟩ = .ok declared ∧
        declared.compileTree reference = (.ok schema, later) := by
  have hSilent := Compiler.isSilent_builtin version
  let assignment : Expr := ⟨.assignment .assign target value, note⟩
  let declared : Session :=
    ⟨{ version := version }, registry.declare name value, reader⟩
  have hDeclared :
      declareTree ⟨{ version := version }, registry, reader⟩ assignment =
        .ok declared := by
    simp only [assignment, declareTree, naming?, hTarget]
    rfl
  rcases (compileTree_eq_ok_iff _ assignment hNote schema).mp
      ⟨after, hCompiled⟩ with ⟨final, hAssigned⟩
  have hReferred :=
    outcome_reference_of_assignment hSilent hNew hTarget hNote hReference
      hAssigned
  rcases (compileTree_eq_ok_iff declared reference hPlain schema).mpr
      hReferred with ⟨later, hLater⟩
  exact ⟨declared, later, hDeclared, hLater⟩

/- The value of `A = { a: A = int, b: A }`, which gives `A` itself. -/
def selfNaming : Expr :=
  let refer : Expr := ⟨.identifier "A", {}⟩
  let inner : Expr := ⟨.assignment .assign refer ⟨.identifier "int", {}⟩, {}⟩
  ⟨.object
    [.property (.identifier "a") false inner {} {},
      .property (.identifier "b") false refer {} {}], {}⟩

/- Its schema: within it, `A` is the `int` of the first member. -/
def selfNamed : Schema :=
  let member : Schema :=
    .object (.of [("title", .string "A"), ("type", .string "integer")])
  .object
    (.of
      [("title", .string "A"), ("type", .string "object"),
        ("additionalProperties", .bool false),
        ("required", .strings ["a", "b"]),
        ("properties", .object (.of [("a", member), ("b", member)]))])

/-
  While the value is compiled, `A` comes to stand for `int`; behind
  it, for the whole. So does a reference to the declared `A`.
-/
theorem declareTree_compileTree_selfNaming :
    let refer : Expr := ⟨.identifier "A", {}⟩
    let assignment : Expr := ⟨.assignment .assign refer selfNaming, {}⟩
    ∃ after declared later,
      compileTree {} assignment = (.ok selfNamed, after) ∧
        declareTree {} assignment = .ok declared ∧
        declared.compileTree refer = (.ok selfNamed, later) := by
  intro refer assignment
  have hCompiled :
      ∃ registry,
        outcome (compile {} assignment) Registry.initial =
          (.ok selfNamed, registry) := by
    rw [outcome_compile]
    simp only [assignment, refer, selfNaming, expr, memberList,
      propertyInto, resolve, outcome_bind, outcome_check, outcome_pure,
      andThen, Key.propertyName, Expr.referenceName]
    exact ⟨_, rfl⟩
  rcases (compileTree_eq_ok_iff {} assignment rfl selfNamed).mpr
      hCompiled with ⟨after, hAfter⟩
  rcases declareTree_compileTree .draft07 Registry.initial .standard "A" rfl
      refer selfNaming {} rfl rfl refer rfl rfl selfNamed after hAfter with
    ⟨declared, later, hDeclared, hLater⟩
  exact ⟨after, declared, later, hAfter, hDeclared, hLater⟩

end Session

end SchemaLang
