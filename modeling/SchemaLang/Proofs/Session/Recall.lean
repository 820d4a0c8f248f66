import SchemaLang.Proofs.Compile.Spreading
import SchemaLang.Proofs.Resolution.Evolution
import SchemaLang.Proofs.Session.Reachable

/-
  What a session remembers. A name that has been assigned to stands for
  the compiled schema, whatever is compiled or declared from then on,
  as long as nothing gives or declares the name again. To refer to it
  is to get this schema, as it was, whichever way the name is written.

  Main declarations:
    * `Compile.titled_describe_titled`
    * `Session.Action` and `Session.performAll`
    * `Session.Remembers` and `Session.Remembers.performAll`
    * `Session.named_reads_back`
-/

namespace SchemaLang

------------------------------------------------------------
-- Named Schemas
------------------------------------------------------------

/- A schema that has a title is not changed by it. -/
theorem Schema.setTitle_of_get?
    {fields : Fields}
    {name : String}
    (hTitle : fields.get? "title" = some (.string name)) :
    (Schema.object fields).setTitle name = .object fields := by
  have hContains : fields.contains "title" = true := by
    rw [OrderedMap.contains, hTitle]
    rfl
  rw [setTitle, mapFields, if_pos hContains,
    OrderedMap.insert_eq_self_iff.mpr hTitle]

theorem Schema.exists_setTitle_object
    (fields : Fields)
    (name : String) :
    ∃ named : Fields,
      (Schema.object fields).setTitle name = .object named ∧
        named.get? "title" = some (.string name) := by
  unfold setTitle mapFields
  dsimp only
  split
  · exact ⟨_, rfl, by rw [OrderedMap.get?_insert, if_pos rfl]⟩
  · exact ⟨_, rfl, by rw [OrderedMap.get?_insertFirst, if_pos rfl]⟩

/- What is named is not changed when its name is given once more. -/
theorem Compile.titled_describe_titled
    (name : String)
    (comments : List Comment)
    (schema : Schema) :
    titled name ((titled name schema).describe comments) =
      (titled name schema).describe comments := by
  unfold titled
  split
  · rfl
  · cases schema with
    | object fields =>
        rcases Schema.exists_setTitle_object fields name with
          ⟨named, hNamed, hTitle⟩
        rcases Schema.exists_describe_object named comments with
          ⟨described, hDescribed, hKeys⟩
        rw [hNamed, hDescribed]
        apply Schema.setTitle_of_get?
        rw [hKeys "title" (by decide), hTitle]
    | _ => cases comments <;> rfl

/- What is given within a part is given within the whole. -/
theorem Expr.mem_given_of_mem_parts
    {part e : Expr}
    (hPart : part ∈ e.parts)
    {name : String}
    (hGiven : name ∈ part.given) :
    name ∈ e.given := by
  rcases List.mem_filterMap.mp hGiven with ⟨giver, hGiver, hName⟩
  exact List.mem_filterMap.mpr ⟨giver, mem_parts_trans hGiver hPart, hName⟩

------------------------------------------------------------
-- Actions
------------------------------------------------------------

namespace Session

open Compile

/- What a session may be asked to do. -/
inductive Action
  | compile (e : Expr)
  | declare (e : Expr)

/- The session behind an action, whether this succeeds or fails. -/
def perform
    (session : Session) : Action → Session
  | .compile e => (session.compileTree e).2
  | .declare e =>
    match session.declareTree e with
    | .ok after => after
    | .error _ => session

/- The session behind actions that are performed in turn. -/
def performAll
    (session : Session)
    (actions : List Action) : Session :=
  actions.foldl perform session

/-
  An action leaves a name alone: nothing within its expression gives the
  name, and it is not the name that is declared.
-/
def Action.Spares
    (name : String) : Action → Prop
  | .compile e => name ∉ e.given
  | .declare e =>
    name ∉ e.given ∧
      ∀ target value, naming? e = some (target, value) →
        target.referenceName ≠ .ok name

/- A name stands for a schema, and nothing that is declared gives it. -/
structure Remembers
    (name : String)
    (schema : Schema)
    (session : Session) : Prop where
  silent : session.compiler.IsSilent
  stands : session.registry.get? name = some (.compiled schema)
  sources :
    ∀ other source,
      session.registry.get? other = some (.source source) →
        name ∉ source.given

namespace Remembers

variable {name : String}
variable {schema : Schema}
variable {session : Session}

/- Compiling changes no name but those that are given. -/
theorem compileTree
    (hRemembers : Remembers name schema session)
    {e : Expr}
    (hSpares : name ∉ e.given) :
    Remembers name schema (session.compileTree e).2 := by
  rcases hOutcome :
      outcome (Compile.compile session.compiler e) session.registry with
    ⟨result, registry⟩
  have hEvolves :=
    evolves_expr hRemembers.silent session.registry.declaredNames
      session.registry e
  rw [← outcome_compile, hOutcome] at hEvolves
  rw [compileTree_of_outcome hOutcome]
  cases result with
  | error error => exact hRemembers
  | ok compiled =>
      refine ⟨hRemembers.silent, ?_, fun other source hSource =>
        hRemembers.sources other source (hEvolves.source hSource)⟩
      rcases hEvolves.entries name with hSame | ⟨-, hGiven | hDeclared⟩
      · exact hSame.trans hRemembers.stands
      · exact absurd hGiven hSpares
      · rcases hDeclared with ⟨other, source, hSource, hGiven⟩
        exact absurd hGiven (hRemembers.sources other source hSource)

/- Declaring another name changes nothing but that name. -/
theorem declare
    (hRemembers : Remembers name schema session)
    {other : String}
    (hOther : other ≠ name)
    {value : Expr}
    (hSpares : name ∉ value.given) :
    Remembers name schema
      { session with registry := session.registry.declare other value } where
  silent := hRemembers.silent
  stands := by
    rw [Registry.get?_declare, if_neg hOther]
    exact hRemembers.stands
  sources := by
    intro declared source hSource
    rw [Registry.get?_declare] at hSource
    split at hSource
    · cases hSource
      exact hSpares
    · exact hRemembers.sources declared source hSource

theorem declareTree
    (hRemembers : Remembers name schema session)
    {e : Expr}
    (hSpares : (Action.declare e).Spares name)
    {after : Session}
    (hDeclares : session.declareTree e = .ok after) :
    Remembers name schema after := by
  cases hNaming : naming? e with
  | none =>
      rw [declareTree_of_naming?_eq_none hNaming] at hDeclares
      cases hDeclares
      exact hRemembers
  | some pair =>
      rcases pair with ⟨target, value⟩
      rcases (declareTree_eq_ok_iff hNaming session after).mp hDeclares with
        ⟨other, hName, rfl⟩
      apply hRemembers.declare
      · rintro rfl
        exact hSpares.2 target value hNaming hName
      · intro hGiven
        exact hSpares.1
          (Expr.mem_given_of_mem_parts (value_mem_parts hNaming) hGiven)

theorem perform
    (hRemembers : Remembers name schema session)
    {action : Action}
    (hSpares : action.Spares name) :
    Remembers name schema (session.perform action) := by
  cases action with
  | compile e => exact hRemembers.compileTree hSpares
  | declare e =>
      unfold Session.perform
      dsimp only
      split
      · rename_i hDeclares
        exact hRemembers.declareTree hSpares hDeclares
      · exact hRemembers

/- The induction is on the actions, in the order in which they happen. -/
theorem performAll
    (hRemembers : Remembers name schema session)
    {actions : List Action}
    (hSpares : ∀ action ∈ actions, action.Spares name) :
    Remembers name schema (session.performAll actions) := by
  induction actions generalizing session with
  | nil => exact hRemembers
  | cons action rest ih =>
      rw [List.forall_mem_cons] at hSpares
      exact ih (hRemembers.perform hSpares.1) hSpares.2

/- A reference to the name is compiled to the schema under the name. -/
theorem compileTree_reference
    (hRemembers : Remembers name schema session)
    {reference : Expr}
    (hReference : reference.referenceName = .ok name)
    (hPlain : reference.comments.isEmpty = true) :
    session.compileTree reference = (.ok (titled name schema), session) := by
  have hYields :
      Yields session.registry
        (Compile.compile session.compiler reference)
        (titled name schema) :=
    yields_compile (yields_reference hReference hRemembers.stands _)
  rw [compileTree_of_outcome hYields]
  dsimp only
  rw [Comments.preferred_eq_nil hPlain, Schema.describe_nil]

end Remembers

------------------------------------------------------------
-- Assignments
------------------------------------------------------------

/-
  What an assignment is compiled to is remembered, and it does not
  change when its comments and its name are given once more.
-/
theorem remembers_assignment
    {session after : Session}
    (hSilent : session.compiler.IsSilent)
    {target value : Expr}
    {note : Note}
    {name : String}
    (hTarget : target.referenceName = .ok name)
    {schema : Schema}
    (hCompiled :
      session.compileTree ⟨.assignment .assign target value, note⟩ =
        (.ok schema, after))
    (hSources :
      ∀ other source,
        after.registry.get? other = some (.source source) →
          name ∉ source.given) :
    Remembers name schema after ∧ titled name schema = schema := by
  rcases hOutcome :
      outcome
        (Compile.compile session.compiler
          ⟨.assignment .assign target value, note⟩)
        session.registry with
    ⟨result, registry⟩
  rw [compileTree_of_outcome hOutcome] at hCompiled
  rw [outcome_compile_assignment hTarget] at hOutcome
  cases result with
  | error error => cases hCompiled
  | ok stored =>
      rcases andThen_eq_ok hOutcome with ⟨inner, between, -, hNamed⟩
      rw [outcome_register] at hNamed
      cases hNamed
      have hDescribed :
          ((titled name inner).describe note.comments.preferred).describe
              note.comments.preferred =
            (titled name inner).describe note.comments.preferred := by
        rw [Schema.describe_describe, ite_self]
      injection hCompiled with hSchema hAfter
      cases hSchema.symm.trans (congrArg Except.ok hDescribed)
      subst hAfter
      refine ⟨⟨hSilent, ?_, hSources⟩, titled_describe_titled ..⟩
      rw [Registry.define, OrderedMap.get?_insert, if_pos rfl]

/-
  Let an assignment be compiled to a schema, and actions follow that
  succeed or fail, but leave the name alone. If nothing that is declared
  gives the name either, every reference to it without comments is
  compiled to that schema, and nothing is changed by it.
-/
theorem named_reads_back
    (version : Version)
    (registry : Registry)
    (reader : Reader)
    (target value : Expr)
    (note : Note)
    (name : String)
    (hTarget : target.referenceName = .ok name)
    (schema : Schema)
    (after : Session)
    (hCompiled :
      compileTree ⟨{ version := version }, registry, reader⟩
          ⟨.assignment .assign target value, note⟩ =
        (.ok schema, after))
    (hSources :
      ∀ other source,
        after.registry.get? other = some (.source source) →
          name ∉ source.given)
    (actions : List Action)
    (hSpares : ∀ action ∈ actions, action.Spares name)
    (reference : Expr)
    (hReference : reference.referenceName = .ok name)
    (hPlain : reference.comments.isEmpty = true) :
    (after.performAll actions).compileTree reference =
      (.ok schema, after.performAll actions) := by
  rcases remembers_assignment (Compiler.isSilent_builtin version) hTarget
      hCompiled hSources with ⟨hRemembers, hTitled⟩
  rw [(hRemembers.performAll hSpares).compileTree_reference hReference
    hPlain, hTitled]

/- The expression `Api.User`. -/
def user : Expr :=
  ⟨.member ⟨.identifier "Api", {}⟩ ⟨.identifier "User", {}⟩ false, {}⟩

/- The expression `Api["User"]`. -/
def userByText : Expr :=
  ⟨.member ⟨.identifier "Api", {}⟩ ⟨.string "User", {}⟩ true, {}⟩

/- The schema of `Api.User = int` behind a comment. -/
def userSchema : Schema :=
  .object
    (.of
      [("description", .string "Number of a user"),
        ("title", .string "Api.User"), ("type", .string "integer")])

/-
  A failure behind a name that is given, `C = Api.User` declared, `C`
  compiled, and `"C" = Api.User`, which declares nothing.
-/
def aroundUser : List Action :=
  [.compile halfNamed,
    .declare ⟨.assignment .assign ⟨.identifier "C", {}⟩ user, {}⟩,
    .compile ⟨.identifier "C", {}⟩,
    .declare ⟨.assignment .assign ⟨.string "C", {}⟩ user, {}⟩]

/- The assignment, with its comment in front. -/
def namedUser : Expr :=
  ⟨.assignment .assign user ⟨.identifier "int", {}⟩,
    { comments := { leading := [⟨"Number of a user", {}⟩] } }⟩

theorem referenceName_user :
    user.referenceName = .ok "Api.User" :=
  rfl

theorem compileTree_namedUser :
    compileTree {} namedUser =
      (.ok userSchema,
        { registry := Registry.initial.define "Api.User" userSchema }) := by
  have hInteger :
      Yields Registry.initial
        (expr {} (expandWithin {} Registry.initial.declaredNames)
          ⟨.identifier "int", {}⟩)
        (titled "int" integer) :=
    yields_reference rfl rfl _
  have hOutcome :
      outcome (Compile.compile {} namedUser) Registry.initial =
        (.ok userSchema,
          Registry.initial.define "Api.User" userSchema) := by
    unfold namedUser
    rw [outcome_compile_assignment referenceName_user, hInteger, andThen,
      outcome_register]
    rfl
  rw [compileTree_of_outcome hOutcome]
  rfl

theorem spares_aroundUser :
    ∀ action ∈ aroundUser, action.Spares "Api.User" := by
  simp only [aroundUser, List.forall_mem_cons, List.not_mem_nil,
    false_implies, implies_true, and_true, Action.Spares]
  refine ⟨by decide, ⟨by decide, ?_⟩, by decide, ⟨by decide, ?_⟩⟩
  · rintro _ _ ⟨⟩
    simp [Expr.referenceName]
  · rintro _ _ ⟨⟩
    simp [Expr.referenceName]

/- The name is read back in its other spelling, behind all of these. -/
theorem named_reads_back_user :
    compileTree {} namedUser =
        (.ok userSchema,
          { registry := Registry.initial.define "Api.User" userSchema }) ∧
      (∀ action ∈ aroundUser, action.Spares "Api.User") ∧
      userByText.referenceName = user.referenceName ∧
      (performAll
          { registry := Registry.initial.define "Api.User" userSchema }
          aroundUser).compileTree userByText =
        (.ok userSchema,
          performAll
            { registry := Registry.initial.define "Api.User" userSchema }
            aroundUser) := by
  refine ⟨compileTree_namedUser, spares_aroundUser, rfl, ?_⟩
  apply named_reads_back .draft07 Registry.initial .standard user
    ⟨.identifier "int", {}⟩ _ "Api.User" referenceName_user userSchema _
    compileTree_namedUser ?_ aroundUser spares_aroundUser userByText rfl rfl
  intro other source hSource
  rw [declaresQuietly_initial.define "Api.User" userSchema other source
    hSource]
  exact List.not_mem_nil

end Session

end SchemaLang
