import SchemaLang.Proofs.Compile.Outcome
import SchemaLang.Proofs.Schema.Removal
import SchemaLang.Session

/-
  What a failed operation of a session leaves named. Names are taken
  back if compiling fails, but not if the schema is compiled and
  then turns out to hold a removal.

  Main declarations:
    * `Session.KeepsNames`
    * `Session.NamesWithRemoval`
    * `Session.compileDocument_cases`
    * `Session.keepsNames_iff`
-/

namespace SchemaLang.Session

/- If an operation fails, the names are those from before. -/
def KeepsNames {ε α : Type}
    (session : Session)
    (ended : Except ε α × Session) : Prop :=
  ∀ error after,
    ended = (.error error, after) →
      after.registry = session.registry

/-
  Compiling an expression succeeds and gives names, but leaves a
  removal in the schema.
-/
def NamesWithRemoval
    (session : Session)
    (e : Expr) : Prop :=
  ∃ schema registry,
    Compile.outcome (Compile.compile session.compiler e)
        session.registry = (.ok schema, registry) ∧
      schema.holdsRemoval = true ∧ registry ≠ session.registry

/- The three ways in which compiling into a document ends. -/
theorem compileDocument_cases
    (session : Session)
    (e : Expr) :
    (∃ error registry,
      Compile.outcome (Compile.compile session.compiler e)
          session.registry = (.error error, registry) ∧
        session.compileDocument e = (.error error, session)) ∨
      ∃ schema registry,
        Compile.outcome (Compile.compile session.compiler e)
            session.registry = (.ok schema, registry) ∧
          session.compileDocument e =
            ((schema.describe e.comments.preferred).toDocument,
              { session with registry := registry }) := by
  rcases hOutcome :
      Compile.outcome (Compile.compile session.compiler e)
        session.registry with ⟨result, registry⟩
  have hRun :
      session.run (Compile.compile session.compiler e) =
        (result, { session with registry := registry }) := by
    unfold Compile.outcome at hOutcome
    simp only [run, hOutcome]
  cases result with
  | error error =>
      refine .inl ⟨error, registry, rfl, ?_⟩
      simp [compileDocument, compileTree, hRun]
  | ok schema =>
      refine .inr ⟨schema, registry, rfl, ?_⟩
      simp [compileDocument, compileTree, hRun]

/- A schema has no document if it holds a removal, and only then. -/
theorem toDocument_eq_error_iff
    (schema : Schema)
    (comments : List Comment) :
    (∃ error, (schema.describe comments).toDocument = .error error) ↔
      schema.holdsRemoval = true := by
  have hOk := Schema.isOk_toDocument (schema.describe comments)
  rw [Schema.holdsRemoval_describe] at hOk
  cases hDocument : (schema.describe comments).toDocument with
  | error error =>
      rw [hDocument] at hOk
      simpa [Except.isOk, Except.toBool] using hOk
  | ok document =>
      rw [hDocument] at hOk
      simpa [Except.isOk, Except.toBool] using hOk

/- Names are kept unless a schema with a removal has been named. -/
theorem keepsNames_compileDocument_iff
    (session : Session)
    (e : Expr) :
    KeepsNames session (session.compileDocument e) ↔
      ¬ NamesWithRemoval session e := by
  rcases compileDocument_cases session e with
    ⟨error, registry, hOutcome, hEnds⟩ |
    ⟨schema, registry, hOutcome, hEnds⟩
  · rw [hEnds]
    constructor
    · rintro - ⟨schema, other, hOk, -⟩
      rw [hOutcome] at hOk
      cases hOk
    · rintro - failure after hFailure
      cases hFailure
      rfl
  · rw [hEnds]
    constructor
    · rintro hKeeps ⟨other, final, hOk, hRemoval, hChanged⟩
      rw [hOutcome] at hOk
      cases hOk
      rcases (toDocument_eq_error_iff schema
          e.comments.preferred).mpr hRemoval with ⟨error, hError⟩
      rw [hError] at hKeeps
      exact hChanged (hKeeps error _ rfl)
    · intro hNone error after hFailure
      injection hFailure with hError hAfter
      subst hAfter
      by_contra hChanged
      exact hNone ⟨schema, registry, hOutcome,
        (toDocument_eq_error_iff schema _).mp ⟨error, hError⟩,
        hChanged⟩

/- A text is kept from giving names as its expression is. -/
theorem keepsNames_compileText_iff
    (session : Session)
    (placement : Placement)
    (text : String) :
    KeepsNames session (session.compileText placement text) ↔
      ∀ e, session.reader.read placement text = .ok e →
        KeepsNames session (session.compileDocument e) := by
  unfold compileText
  cases hRead : session.reader.read placement text with
  | error failure =>
      simp only [reduceCtorEq, false_implies, implies_true, iff_true]
      intro error after hEnds
      cases hEnds
      rfl
  | ok e =>
      simp only [Except.ok.injEq, forall_eq']
      rcases hEnds : session.compileDocument e with ⟨result, later⟩
      cases result with
      | error error =>
          constructor
          · rintro hKeeps other after hOther
            cases hOther
            exact hKeeps (.compile error) later rfl
          · rintro hKeeps other after hOther
            cases hOther
            exact hKeeps error later rfl
      | ok document => simp [KeepsNames]

/-
  An operation that fails keeps the names from before, unless the
  expression was compiled, gave names, and left a removal in its
  schema. This is so for expressions and for texts.
-/
theorem keepsNames_iff
    (session : Session) :
    (∀ e,
      KeepsNames session (session.compileDocument e) ↔
        ¬ NamesWithRemoval session e) ∧
      ∀ placement text,
        KeepsNames session (session.compileText placement text) ↔
          ∀ e, session.reader.read placement text = .ok e →
            ¬ NamesWithRemoval session e := by
  refine ⟨keepsNames_compileDocument_iff session, ?_⟩
  intro placement text
  rw [keepsNames_compileText_iff]
  simp only [keepsNames_compileDocument_iff]

/- The expression `A = !!{a: undefined}`. -/
def namedRemoval : Expr :=
  let removed : Expr := ⟨.identifier "undefined", {}⟩
  let literal : Expr :=
    ⟨.object [.property (.identifier "a") false removed {} {}], {}⟩
  ⟨.assignment .assign ⟨.identifier "A", {}⟩
    ⟨.unary .not ⟨.unary .not literal, {}⟩, {}⟩, {}⟩

theorem outcome_namedRemoval :
    Compile.outcome (Compile.compile {} namedRemoval)
        Registry.initial =
      (.ok (.object (.of [("title", .string "A"), ("a", .removal {})])),
        Registry.initial.define "A"
          (.object (.of [("title", .string "A"), ("a", .removal {})]))) := by
  unfold Compile.compile namedRemoval
  simp only [Compile.expr, Compile.literalMembers, Compile.literal,
    Compile.outcome_bind, Compile.outcome_get, Compile.outcome_check,
    Compile.outcome_pure, Compile.andThen, Compile.literalKey,
    Expr.referenceName]
  rfl

/- It fails in a fresh session, and its name is given all the same. -/
theorem not_keepsNames_namedRemoval :
    (compileDocument {} namedRemoval).1 =
        .error ⟨.strayRemoval, {}⟩ ∧
      OrderedMap.contains Registry.initial "A" = false ∧
      OrderedMap.contains
        (compileDocument {} namedRemoval).2.registry "A" = true := by
  rcases compileDocument_cases {} namedRemoval with
    ⟨error, registry, hOutcome, -⟩ |
    ⟨schema, registry, hOutcome, hEnds⟩
  · cases outcome_namedRemoval.symm.trans hOutcome
  · cases outcome_namedRemoval.symm.trans hOutcome
    rw [hEnds]
    exact ⟨rfl, rfl, rfl⟩

end SchemaLang.Session
