import SchemaLang.Proofs.Compile.Switching
import SchemaLang.Proofs.Compile.Transfer
import SchemaLang.Proofs.Validation.Keywords

/-
  A union without its null branches. Apart from null, it accepts what
  the union accepts, whatever it is that accepts documents, as long as
  the usual rules for unions, names and the type of null are kept.

  Main declarations:
    * `ReadsUnions` and `Validator.readsUnions`
    * `Schema.nonNull`
    * `ReadsUnions.exists_nonNull`
    * `Compile.finish_notNull`
    * `Compile.notNull_removes_null`
-/

namespace SchemaLang

------------------------------------------------------------
-- Rules On Unions
------------------------------------------------------------

/-
  What is asked of a relation between schemas and the documents that
  they accept: a union accepts what one of its branches does, names say
  nothing, and only null is of the type of null.
-/
structure ReadsUnions
    (accepts : Schema → Document → Prop) : Prop where
  anyOf : ∀ branches v,
    accepts (.object (.single "anyOf" (.array branches))) v ↔
      ∃ branch ∈ branches, accepts branch v
  unnamed : ∀ (fields : Fields) v,
    accepts (.object fields.unnamed) v ↔ accepts (.object fields) v
  null : ∀ (schema : Schema) v,
    schema.typeName? = some "null" → accepts schema v → v = .null

/- The branches of a union that are not of the type of null. -/
def Schema.nonNull
    (branches : List Schema) : List Schema :=
  branches.filter fun branch => branch.typeName? != some "null"

theorem Schema.mem_nonNull
    {branches : List Schema}
    {branch : Schema} :
    branch ∈ nonNull branches ↔
      branch ∈ branches ∧ branch.typeName? ≠ some "null" := by
  rw [nonNull, List.mem_filter, bne_iff_ne]

namespace ReadsUnions

variable {accepts : Schema → Document → Prop}
variable (hReads : ReadsUnions accepts)
variable {v : Document}

include hReads

theorem stripNames
    (schema : Schema) :
    accepts schema.stripNames v ↔ accepts schema v := by
  cases schema with
  | object fields => exact hReads.unnamed fields v
  | _ => exact Iff.rfl

theorem union
    {fields : Fields}
    {branches : List Schema}
    (hUnion : fields.unnamed = .single "anyOf" (.array branches)) :
    accepts (.object fields) v ↔ ∃ branch ∈ branches, accepts branch v := by
  rw [← hReads.unnamed, hUnion, hReads.anyOf]

/- What is not null is accepted by a branch that is not of its type. -/
theorem exists_nonNull
    (branches : List Schema)
    (hNull : v ≠ .null) :
    (∃ branch ∈ Schema.nonNull branches, accepts branch v) ↔
      ∃ branch ∈ branches, accepts branch v := by
  constructor
  · rintro ⟨branch, hBranch, hAccepts⟩
    exact ⟨branch, (Schema.mem_nonNull.mp hBranch).1, hAccepts⟩
  · rintro ⟨branch, hBranch, hAccepts⟩
    refine ⟨branch, Schema.mem_nonNull.mpr ⟨hBranch, ?_⟩, hAccepts⟩
    intro hType
    exact hNull (hReads.null branch v hType hAccepts)

end ReadsUnions

namespace Validator

/- The rules see no more of a schema than the values of its keywords. -/
theorem holds_congr
    (validator : Validator)
    {entries entries' : OrderedMap Sense}
    (hSame :
      ∀ key, key ≠ "title" → key ≠ "description" →
        entries.get? key = entries'.get? key)
    (v : Document) :
    holds validator entries v = holds validator entries' v := by
  simp (disch := decide) only [holds, valueRules, numberRules, textRules,
    arrayRules, objectRules, branchRules, itemRules, stated, limited,
    positions, isKnown, hSame]

theorem readsUnions
    (validator : Validator) :
    ReadsUnions fun schema v => validator.accepts schema v = true where
  anyOf branches v := by
    rw [accepts_anyOf, List.any_eq_true]
  unnamed fields v := by
    rw [accepts_object, accepts_object, holds_congr validator]
    intro key hTitle hDescription
    rw [get?_fieldSenses, get?_fieldSenses, Fields.get?_unnamed,
      if_neg (not_or.mpr ⟨hTitle, hDescription⟩)]
  null schema v hType hAccepts := by
    cases schema with
    | object fields =>
        rcases Option.bind_eq_some_iff.mp hType with
          ⟨type, hGet, hString⟩
        have hType :
            OrderedMap.get? fields "type" = some (.string "null") := by
          cases type with
          | string text =>
              cases hString
              exact hGet
          | _ => cases hString
        have hNull : v.hasType "null" = true := by
          simp only [accepts_object, holds, valueRules, stated,
            get?_fieldSenses, hType, Option.map_some, sense_value,
            Bool.and_eq_true] at hAccepts
          exact hAccepts.1.1.1.1.1.1.1
        cases v with
        | null => rfl
        | number n => simp [Document.hasType] at hNull
        | _ => cases hNull
    | _ => cases hType

end Validator

------------------------------------------------------------
-- The Method
------------------------------------------------------------

namespace Compile

variable {compiler : Compiler}
variable {expand : Expand}

/- A branch that is left alone, or the union with the branches left. -/
def remaining
    (fields : Fields) : List Schema → Schema
  | [branch] => branch
  | kept => .object (fields.insert "anyOf" (.array kept))

/- What remains is no schema only if it is one branch that is none. -/
theorem isFalsy_remaining
    (fields : Fields)
    (kept : List Schema) :
    (remaining fields kept).isFalsy = true ↔
      ∃ branch, kept = [branch] ∧ branch.isFalsy = true := by
  match kept with
  | [] => simp [remaining, Schema.isFalsy]
  | [branch] => simp [remaining]
  | _ :: _ :: _ => simp [remaining, Schema.isFalsy]

section Union

variable {fields : Fields}
variable {branches : List Schema}
variable (hUnion : fields.unnamed = .single "anyOf" (.array branches))

include hUnion

/- Apart from names, a union has no other key. -/
theorem get?_of_union
    {key : String}
    (hTitle : key ≠ "title")
    (hDescription : key ≠ "description") :
    OrderedMap.get? fields key =
      if "anyOf" = key then some (.array branches) else none := by
  have hGet := Fields.get?_unnamed fields key
  rw [hUnion, if_neg (not_or.mpr ⟨hTitle, hDescription⟩)] at hGet
  exact hGet.symm

theorem kind_of_union :
    (Schema.object fields).kind = .composite := by
  simp (disch := decide) only [Schema.kind, Schema.typeName?, Schema.get?,
    Schema.fields?, Schema.Kind.ofKeys, List.any_cons, OrderedMap.contains,
    Option.bind_some, get?_of_union hUnion]
  rfl

/- The method keeps the branches that are not of the type of null. -/
theorem finish_notNull
    (site : Call) :
    Method.notNull.finish (.object fields) site () =
      .ok (remaining fields (Schema.nonNull branches)) := by
  have hBranches :
      Method.branches? (.object fields) = some ("anyOf", branches) := by
    simp (disch := decide) only [Method.branches?, Schema.get?,
      Schema.fields?, Option.bind_some, get?_of_union hUnion]
    rfl
  simp only [Method.notNull, hBranches]
  rw [← Schema.nonNull]
  generalize Schema.nonNull branches = kept
  rcases kept with _ | ⟨branch, _ | ⟨next, others⟩⟩
  · rfl
  · rfl
  · rfl

/- Several branches are a union without names. -/
theorem stripNames_remaining
    {kept : List Schema}
    (hKept : kept.length ≠ 1) :
    (remaining fields kept).stripNames =
      .object (.single "anyOf" (.array kept)) := by
  have hRemaining :
      remaining fields kept =
        .object (fields.insert "anyOf" (.array kept)) := by
    match kept with
    | [] => rfl
    | [_] => exact absurd rfl hKept
    | _ :: _ :: _ => rfl
  have hStrip :
      (Schema.object (fields.insert "anyOf" (.array kept))).stripNames =
        .object
          (Fields.unnamed (fields.insert "anyOf" (.array kept))) := rfl
  have hInsert :
      Fields.unnamed (fields.insert "anyOf" (.array kept)) =
        fields.unnamed.insert "anyOf" (.array kept) := by
    unfold Fields.unnamed
    rw [OrderedMap.erase_insert_of_ne _ (by decide),
      OrderedMap.erase_insert_of_ne _ (by decide)]
  rw [hRemaining, hStrip, hInsert, hUnion]
  rfl

theorem remaining_cases
    (kept : List Schema) :
    (∃ branch,
      kept = [branch] ∧
        (remaining fields kept).stripNames = branch.stripNames) ∨
      kept.length ≠ 1 ∧
        (remaining fields kept).stripNames =
          .object (.single "anyOf" (.array kept)) := by
  by_cases hOne : kept.length = 1
  · rcases List.length_eq_one_iff.mp hOne with ⟨branch, rfl⟩
    exact .inl ⟨branch, rfl, rfl⟩
  · exact .inr ⟨hOne, stripNames_remaining hUnion hOne⟩

theorem accepts_remaining
    {accepts : Schema → Document → Prop}
    (hReads : ReadsUnions accepts)
    {v : Document}
    (hNull : v ≠ .null) :
    accepts (remaining fields (Schema.nonNull branches)).stripNames v ↔
      accepts (.object fields) v := by
  rw [hReads.union hUnion, ← hReads.exists_nonNull branches hNull]
  rcases remaining_cases hUnion (Schema.nonNull branches) with
    ⟨branch, hKept, hSame⟩ | ⟨-, hSame⟩
  · rw [hSame, hReads.stripNames, hKept]
    simp
  · rw [hSame, hReads.anyOf]

end Union

/- The call `receiver.notNull()`. -/
def nonNullOf
    (receiver : Expr)
    (property middle called : Note) : Expr :=
  calling receiver ⟨.identifier "notNull", property⟩ [] middle called

theorem outcome_nonNullOf
    {chain : Expr}
    {registry after : Registry}
    {fields : Fields}
    {branches : List Schema}
    (hMethods : compiler.methods = Method.builtins)
    (hChain :
      outcome (expr compiler expand chain) registry =
        (.ok (.object fields), after))
    (hUnion : fields.unnamed = .single "anyOf" (.array branches))
    (property middle called : Note) :
    let answer := remaining fields (Schema.nonNull branches)
    outcome
        (expr compiler expand (nonNullOf chain property middle called))
        registry =
      (if answer.isFalsy then .error ⟨.noSchema "notNull", called.span⟩
        else .ok answer.stripNames, after) := by
  have hMethod :
      compiler.methods.get? "notNull" = some Method.notNull := by
    rw [hMethods]
    rfl
  have hAdmits :
      Method.notNull.admits (.object fields)
          ⟨"notNull", [], called.span⟩ =
        .ok () :=
    if_pos (kind_of_union hUnion)
  have hRun :
      Yields after
        (run compiler expand Method.notNull (.object fields)
          ⟨"notNull", [], called.span⟩)
        (remaining fields (Schema.nonNull branches)) :=
    yields_run hAdmits (yields_evaluate_nothing _) (finish_notNull hUnion _)
  exact outcome_answering hChain rfl hMethod hRun middle

/-
  A call of `notNull` on a union keeps the branches that are not of the
  type of null, in their order; one that is left alone is the result,
  without names. It fails only if that one is no schema. The result
  accepts the documents other than null that the union accepts.
-/
theorem notNull_removes_null
    (compiler : Compiler)
    (expand : Expand)
    (chain : Expr)
    (property middle called : Note)
    (registry after : Registry)
    (fields : Fields)
    (branches : List Schema)
    (hMethods : compiler.methods = Method.builtins)
    (hChain :
      outcome (expr compiler expand chain) registry =
        (.ok (.object fields), after))
    (hUnion : fields.unnamed = .single "anyOf" (.array branches)) :
    let kept := Schema.nonNull branches
    let ended :=
      outcome
        (expr compiler expand (nonNullOf chain property middle called))
        registry
    (∀ branch, kept = [branch] → branch.isFalsy = true →
      ended = (.error ⟨.noSchema "notNull", called.span⟩, after)) ∧
    ((∀ branch, kept = [branch] → branch.isFalsy = false) →
      ∃ result,
        ended = (.ok result, after) ∧
        ((∃ branch, kept = [branch] ∧ result = branch.stripNames) ∨
          kept.length ≠ 1 ∧ result = .object (.single "anyOf" (.array kept))) ∧
        ∀ accepts, ReadsUnions accepts →
          ∀ v, v ≠ .null →
            (accepts result v ↔ accepts (.object fields) v)) := by
  intro kept ended
  have hEnds : ended = _ :=
    outcome_nonNullOf hMethods hChain hUnion property middle called
  refine ⟨fun branch hKept hFalsy => ?_, fun hSound => ?_⟩
  · rw [hEnds, if_pos]
    exact (isFalsy_remaining fields kept).mpr ⟨branch, hKept, hFalsy⟩
  · refine ⟨(remaining fields kept).stripNames, ?_,
      remaining_cases hUnion kept,
      fun accepts hReads v hNull => accepts_remaining hUnion hReads hNull⟩
    rw [hEnds, if_neg]
    intro hFalsy
    rcases (isFalsy_remaining fields kept).mp hFalsy with
      ⟨branch, hKept, hBranch⟩
    rw [hSound branch hKept] at hBranch
    cases hBranch

/- Operands that are neither cases nor constants are branches. -/
theorem yields_union
    {registry : Registry}
    {left right : Expr}
    {note : Note}
    {leaves : List Expr}
    {schemas : List Schema}
    (hFault : Chain.fault? .or ⟨.logical .or left right, note⟩ = none)
    (hLeaves : Chain.leaves ⟨.logical .or left right, note⟩ = leaves)
    (hCases : leaves.all Chain.isCase = false)
    (hConstants : Chain.constants? leaves = none)
    (hYields :
      List.Forall₂
        (fun e schema => Yields registry (expr compiler expand e) schema)
        leaves schemas) :
    Yields registry
      (expr compiler expand ⟨.logical .or left right, note⟩)
      (.object (.single "anyOf" (.array schemas))) := by
  rw [expr, hFault, hLeaves]
  dsimp only
  rw [hCases, hConstants]
  exact (yields_all hYields).bind (.pure _)

theorem yields_referenced
    {registry : Registry}
    {e : Expr}
    {name : String}
    {schema answer : Schema}
    (hName : e.referenceName = .ok name)
    (hGet : registry.get? name = some (.compiled schema))
    (hAnswer : titled name schema = answer) :
    Yields registry (expr compiler expand e) answer := by
  rw [← hAnswer]
  exact yields_reference hName hGet expand

/- `int || null || string`. -/
def optionalScalar : Expr :=
  ⟨.logical .or
    ⟨.logical .or ⟨.identifier "int", {}⟩ ⟨.null, {}⟩, {}⟩
    ⟨.identifier "string", {}⟩, {}⟩

def optionalBranches : List Schema :=
  [integer, .object (.single "type" (.string "null")),
    .object (.single "type" (.string "string"))]

/- Of `int || null || string` two branches are left. -/
theorem notNull_removes_null_optionalScalar :
    outcome (compile {} optionalScalar) Registry.initial =
        (.ok (.object (.single "anyOf" (.array optionalBranches))),
          Registry.initial) ∧
      ∃ result,
        outcome (compile {} (nonNullOf optionalScalar {} {} {}))
            Registry.initial =
          (.ok result, Registry.initial) ∧
        result =
          .object
            (.single "anyOf"
              (.array
                [integer, .object (.single "type" (.string "string"))])) ∧
        (∀ v, v ≠ .null →
          (plainValidator.accepts result v = true ↔
            plainValidator.accepts
              (.object (.single "anyOf" (.array optionalBranches))) v =
              true)) ∧
        plainValidator.accepts result .null = false ∧
        plainValidator.accepts
          (.object (.single "anyOf" (.array optionalBranches))) .null =
          true := by
  have hChain :
      Yields Registry.initial
        (expr {} (expandWithin {} Registry.initial.declaredNames)
          optionalScalar)
        (.object (.single "anyOf" (.array optionalBranches))) :=
    yields_union rfl rfl rfl rfl
      (.cons (yields_referenced rfl rfl rfl)
        (.cons (yields_referenced rfl rfl rfl)
          (.cons (yields_referenced rfl rfl rfl) .nil)))
  have hKept :
      Schema.nonNull optionalBranches =
        [integer, .object (.single "type" (.string "string"))] := rfl
  rcases (notNull_removes_null {} _ optionalScalar {} {} {} Registry.initial
      Registry.initial _ optionalBranches rfl hChain rfl).2
      (fun _ hOne => nomatch hKept.symm.trans hOne) with
    ⟨result, hEnds, ⟨branch, hOne, -⟩ | ⟨-, hResult⟩, hAccepts⟩
  · cases hKept.symm.trans hOne
  · refine ⟨yields_compile hChain, result, ?_, hResult,
      hAccepts _ plainValidator.readsUnions, ?_, by decide⟩
    · rw [outcome_compile]
      exact hEnds
    · rw [hResult]
      decide

/- `Nil || null`. -/
def emptyUnion : Expr :=
  ⟨.logical .or ⟨.identifier "Nil", {}⟩ ⟨.null, {}⟩, {}⟩

/- A name that stands for null, which is no schema. -/
def nilRegistry : Registry :=
  Registry.initial.define "Nil" .null

/- A branch that is left alone, but is no schema, is no result. -/
theorem notNull_no_schema :
    ∃ branches : List Schema,
      outcome (compile {} emptyUnion) nilRegistry =
        (.ok (.object (.single "anyOf" (.array branches))), nilRegistry) ∧
      (∃ branch ∈ branches, branch.typeName? ≠ some "null") ∧
      outcome (compile {} (nonNullOf emptyUnion {} {} {})) nilRegistry =
        (.error ⟨.noSchema "notNull", {}⟩, nilRegistry) := by
  have hChain :
      Yields nilRegistry
        (expr {} (expandWithin {} nilRegistry.declaredNames) emptyUnion)
        (.object
          (.single "anyOf"
            (.array
              [.null, .object (.single "type" (.string "null"))]))) :=
    yields_union rfl rfl rfl rfl
      (.cons (yields_referenced rfl rfl rfl)
        (.cons (yields_referenced rfl rfl rfl) .nil))
  refine ⟨_, yields_compile hChain, ⟨.null, by simp, by decide⟩, ?_⟩
  rw [outcome_compile]
  exact outcome_nonNullOf rfl hChain rfl {} {} {}

end Compile

end SchemaLang
