import SchemaLang.Proofs.Compile.Equations
import SchemaLang.Proofs.Compile.Outcome
import SchemaLang.Proofs.Expr.Likeness
import SchemaLang.Proofs.OrderedMap

/-
  What one member of an object literal does, by its key: a pattern is
  passed over, a word runs a directive or states a property, and any
  other key is refused.

  Main declarations:
    * `Key.pattern_or_word`
    * `Compile.mem_of_directive?`
    * `Compile.finish_of_run` and `Compile.outcome_run`
    * `Compile.propertyInto_directive`
    * `Compile.propertyInto_ordinary`
    * `Compile.parts_of_object`
-/

namespace SchemaLang

/- A key is a pattern or a word, or there is no name for it. -/
theorem Key.pattern_or_word
    (key : Key) :
    (∃ pattern flags, key = .regex pattern flags) ∨
      (∃ name, key.word? = some name) ∨
        ∀ span, ∃ error, key.propertyName span = .error error := by
  cases key with
  | identifier name => exact .inr (.inl ⟨name, rfl⟩)
  | string value => exact .inr (.inl ⟨value, rfl⟩)
  | number value => exact .inr (.inr fun _ => ⟨_, rfl⟩)
  | regex pattern flags => exact .inl ⟨pattern, flags, rfl⟩
  | expression e => exact .inr (.inr fun _ => ⟨_, rfl⟩)

theorem Key.propertyName_of_word
    {key : Key}
    {name : String}
    (hWord : key.word? = some name)
    (span : Span) :
    key.propertyName span = .ok name := by
  rcases Key.word_cases hWord with rfl | rfl
  · rfl
  · rfl

namespace Compile

/- An expression is a spread, or matches no pattern of one. -/
theorem spread_or_other
    (e : Expr) :
    (∃ argument note, e = ⟨.spread argument, note⟩) ∨
      ∀ argument note, e = ⟨.spread argument, note⟩ → False := by
  rcases e with ⟨form, note⟩
  cases form with
  | spread argument => exact .inl ⟨argument, note, rfl⟩
  | _ => exact .inr (by simp)

/- A directive is in the table, and its key is its name with a sign. -/
theorem mem_of_directive?
    {compiler : Compiler}
    {name : String}
    {entry : String × Method}
    (hDirective : directive? compiler name = some entry) :
    entry ∈ compiler.directives.toList ∧ name = "$" ++ entry.1 := by
  unfold directive? at hDirective
  split at hDirective
  · rename_i rest hName
    rcases Option.map_eq_some_iff.mp hDirective with ⟨method, hGet, rfl⟩
    refine ⟨OrderedMap.mem_of_get? hGet, ?_⟩
    apply String.toList_inj.mp
    simp [hName]
  · cases hDirective

/- A method that has run has admitted its receiver and has finished. -/
theorem finish_of_run
    {compiler : Compiler}
    {expand : Expand}
    {registry after : Registry}
    {method : Method}
    {receiver answer : Schema}
    {site : Call}
    (hRun :
      outcome (run compiler expand method receiver site) registry =
        (.ok answer, after)) :
    method.admits receiver site = .ok () ∧
      ∃ result, method.finish receiver site result = .ok answer := by
  rw [run, outcome_bind, outcome_check] at hRun
  rcases andThen_eq_ok hRun with ⟨_, _, hAdmits, hRest⟩
  rw [outcome_bind] at hRest
  rcases andThen_eq_ok hRest with ⟨result, _, -, hFinish⟩
  rw [outcome_check] at hFinish
  exact ⟨(Prod.mk.inj hAdmits).1, result, (Prod.mk.inj hFinish).1⟩

/- Arguments that are used as they are written are there at once. -/
theorem yields_evaluate_nothing
    {compiler : Compiler}
    {expand : Expand}
    {registry : Registry}
    (site : Call) :
    Yields registry (evaluate compiler expand .nothing site) () := by
  rw [evaluate]
  exact .pure _

/- A method changes no names but those that its arguments change. -/
theorem outcome_run
    {compiler : Compiler}
    {expand : Expand}
    {registry after : Registry}
    {method : Method}
    {receiver answer : Schema}
    {site : Call}
    {result : method.demand.Result}
    (hAdmits : method.admits receiver site = .ok ())
    (hResult :
      outcome (evaluate compiler expand method.demand site) registry =
        (.ok result, after))
    (hFinish : method.finish receiver site result = .ok answer) :
    outcome (run compiler expand method receiver site) registry =
      (.ok answer, after) := by
  rw [run, outcome_bind, outcome_check, hAdmits]
  dsimp only [andThen]
  rw [outcome_bind, hResult]
  dsimp only [andThen]
  rw [outcome_check, hFinish]

theorem yields_run
    {compiler : Compiler}
    {expand : Expand}
    {registry : Registry}
    {method : Method}
    {receiver answer : Schema}
    {site : Call}
    {result : method.demand.Result}
    (hAdmits : method.admits receiver site = .ok ())
    (hResult :
      Yields registry (evaluate compiler expand method.demand site) result)
    (hFinish : method.finish receiver site result = .ok answer) :
    Yields registry (run compiler expand method receiver site) answer :=
  outcome_run hAdmits hResult hFinish

variable {compiler : Compiler}
variable {expand : Expand}
variable {previous : Option Member}
variable {fields : Fields}
variable {key : Key}
variable {computed : Bool}
variable {value : Expr}
variable {span : Span}
variable {comments : Comments}
variable {name : String}

/- What a directive leaves behind has to be a map. -/
def directed
    (name : String)
    (span : Span) : Schema → Compile Fields
  | .object fields => pure fields
  | _ => fail (.noObject name) span

/- Let a member state a property, or take one away. -/
def ordinaryInto
    (compiler : Compiler)
    (expand : Expand)
    (previous : Option Member)
    (fields : Fields)
    (name : String)
    (computed : Bool)
    (value : Expr)
    (comments : Comments) : Compile Fields :=
  if value.isUndefined then
    pure (Fields.removeProperty (Fields.toggleRequired fields name false) name)
  else do
    let schema ← expr compiler expand value
    let described :=
      Member.describe (Fields.toggleRequired fields name !computed) schema
        comments previous
    pure (Fields.insertProperty described.1 name described.2)

theorem propertyInto_pattern
    (pattern flags : String) :
    propertyInto compiler expand previous fields (.regex pattern flags)
      computed value span comments = pure fields := by
  rw [propertyInto]

theorem propertyInto_nameless
    {error : CompileError}
    (hNameless : key.propertyName span = .error error) :
    propertyInto compiler expand previous fields key computed value span
      comments = throw error := by
  rw [propertyInto, hNameless]
  · rfl
  · rintro pattern flags rfl
    cases hNameless

theorem propertyInto_directive
    (hWord : key.word? = some name)
    {directive : String}
    {method : Method}
    (hDirective : directive? compiler name = some (directive, method)) :
    propertyInto compiler expand previous fields key computed value span
        comments = (do
      let result ←
        run compiler expand method (.object fields) ⟨directive, [value], span⟩
      directed name span result) := by
  rw [propertyInto, Key.propertyName_of_word hWord, check, pure_bind,
    hDirective]
  · rfl
  · rintro pattern flags rfl
    cases hWord

theorem propertyInto_ordinary
    (hWord : key.word? = some name)
    (hDirective : directive? compiler name = none) :
    propertyInto compiler expand previous fields key computed value span
        comments =
      ordinaryInto compiler expand previous fields name computed value
        comments := by
  rw [propertyInto, Key.propertyName_of_word hWord, check, pure_bind,
    hDirective]
  · rfl
  · rintro pattern flags rfl
    cases hWord

/-
  The schema of an object literal: its members, then its patterns if it
  has any, and then its comments.
-/
theorem parts_of_object
    {registry after : Registry}
    {members : List Member}
    {note : Note}
    {schema : Schema}
    (hEnds :
      outcome (expr compiler expand ⟨.object members, note⟩) registry =
        (.ok schema, after)) :
    ∃ (fields whole : Fields) (between : Registry),
      outcome (memberList compiler expand none Fields.skeleton members)
          registry =
        (.ok fields, between) ∧
      schema = (Schema.object whole).describe note.comments.preferred ∧
      ((members.any Member.isPattern = false ∧
          whole = fields ∧ after = between) ∨
        ∃ patterns,
          outcome (patternList compiler expand .empty members) between =
            (.ok patterns, after) ∧
          whole = Fields.addPatterns fields patterns) := by
  rw [expr, outcome_bind] at hEnds
  rcases andThen_eq_ok hEnds with ⟨fields, between, hFields, hRest⟩
  dsimp only at hRest
  split at hRest
  · rw [outcome_bind] at hRest
    rcases andThen_eq_ok hRest with ⟨patterns, _, hPatterns, hSchema⟩
    cases hSchema
    exact ⟨fields, _, between, hFields, rfl,
      .inr ⟨patterns, hPatterns, rfl⟩⟩
  · rename_i hNone
    cases hRest
    exact ⟨fields, _, _, hFields, rfl,
      .inl ⟨Bool.eq_false_iff.mpr hNone, rfl, rfl⟩⟩

end Compile

end SchemaLang
