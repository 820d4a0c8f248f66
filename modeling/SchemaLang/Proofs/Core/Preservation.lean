import SchemaLang.Compile.Declared
import SchemaLang.Proofs.Compile.Runs
import SchemaLang.Proofs.Core.Array
import SchemaLang.Proofs.Core.Branches
import SchemaLang.Proofs.Core.Object

/-
  Every expression of the core is compiled, for every draft, into a
  schema that accepts exactly the documents that the expression
  means.

  Main declarations:
    * `Compile.faithful_of_isCore`
    * `Compile.compile_preserves_meaning`
-/

namespace SchemaLang

------------------------------------------------------------
-- Parts Of Core Expressions
------------------------------------------------------------

namespace Expr

theorem allAreCore_eq
    (es : List Expr) :
    allAreCore es = es.all isCore := by
  induction es with
  | nil => rfl
  | cons e rest ih => rw [allAreCore, ih, List.all_cons]

theorem membersAreCore_eq
    (members : List Member) :
    membersAreCore members =
      members.all (Member.isPlainWith isCore) := by
  induction members with
  | nil => rfl
  | cons member rest ih =>
      cases member with
      | property key computed value span comments =>
          rw [membersAreCore, ih, List.all_cons, Member.isPlainWith]
      | spread e => rfl

theorem isCore_content_of_mem
    {elements : List Expr}
    {element : Expr}
    (hCore : elementsAreCore elements = true)
    (hMember : element ∈ elements) :
    element.content.isCore = true := by
  induction elements with
  | nil => cases hMember
  | cons first rest ih =>
      have hParts :
          first.content.isCore = true ∧
            elementsAreCore rest = true := by
        unfold elementsAreCore at hCore
        split at hCore
        · rename_i hNil
          cases hNil
        · rename_i argument note others hCons
          cases hCons
          simpa [content] using hCore
        · rename_i other others hSpread hCons
          cases hCons
          rw [content_of_not_isSpread]
          · simpa using hCore
          · intro hOther
            rcases first with ⟨form, note⟩
            cases form <;> simp [isSpread] at hOther
            exact hSpread _ _ rfl
      rcases List.mem_cons.mp hMember with rfl | hRest
      · exact hParts.1
      · exact ih hParts.2 hRest

/- The core has no spreads besides those of array literals. -/
theorem not_isSpread_of_isCore
    {e : Expr}
    (hCore : e.isCore = true) :
    ¬ e.isSpread = true := by
  intro hSpread
  rcases e with ⟨form, note⟩
  cases form <;> simp [isSpread] at hSpread
  simp [isCore] at hCore

/- The core does not leave anything undefined. -/
theorem not_isUndefined_of_isCore
    {e : Expr}
    (hCore : e.isCore = true) :
    ¬ e.isUndefined = true := by
  intro hUndefined
  rcases e with ⟨form, note⟩
  cases form <;> simp [isUndefined, identifier?] at hUndefined
  subst hUndefined
  have hBuiltin : Registry.isBuiltin "undefined" = true := hCore
  exact absurd hBuiltin (by decide)

/- Only numbers are negated, and only arrays are exact. -/
theorem isCore_unary
    {op : UnaryOp}
    {argument : Expr}
    {note : Note}
    (hCore : isCore ⟨.unary op argument, note⟩ = true) :
    (∃ value inner,
      op = .neg ∧ argument = ⟨.number value, inner⟩ ∧
        value.isFinite = true) ∨
      ∃ elements inner middle,
        op = .not ∧
          argument = ⟨.unary .not ⟨.array elements, inner⟩, middle⟩ ∧
            allAreCore elements = true := by
  unfold isCore at hCore
  split at hCore
  all_goals rename_i hForm
  case h_5 value inner _ =>
    cases hForm
    exact .inl ⟨value, inner, rfl, rfl, hCore⟩
  case h_10 elements inner middle _ =>
    cases hForm
    exact .inr ⟨elements, inner, middle, rfl, rfl, hCore⟩
  all_goals first | cases hForm | cases hCore

/- The content of an element is no larger than the element. -/
theorem sizeOf_content_le
    (e : Expr) :
    sizeOf e.content ≤ sizeOf e := by
  unfold content
  split
  · simp
    omega
  · exact Nat.le_refl _

end Expr

------------------------------------------------------------
-- Preservation
------------------------------------------------------------

namespace Compile

variable {compiler : Compiler}
variable {expand : Expand}
variable {validator : Validator}

/- An expression is faithful if all smaller ones are. -/
theorem faithful_of_smaller
    (hVersion : compiler.version = validator.version)
    {e : Expr}
    (hCore : e.isCore = true)
    (hSmaller :
      ∀ part : Expr, sizeOf part < sizeOf e → part.isCore = true →
        Faithful compiler expand validator part) :
    Faithful compiler expand validator e := by
  rcases e with ⟨form, note⟩
  cases form with
  | identifier name => exact faithful_identifier hCore
  | null => exact faithful_null note
  | binary op left right => exact faithful_binary hCore
  | number value => exact faithful_number hCore note
  | string value => exact faithful_string value note
  | boolean value => exact faithful_boolean value note
  | unary op argument =>
      rcases Expr.isCore_unary hCore with
        ⟨value, inner, rfl, rfl, hFinite⟩ |
        ⟨elements, inner, middle, rfl, rfl, hElements⟩
      · exact faithful_negative hFinite inner note
      · rw [Expr.allAreCore_eq, List.all_eq_true] at hElements
        refine faithful_exactArray hVersion
          (fun element hElement => ?_)
          (fun element hElement =>
            Expr.not_isSpread_of_isCore (hElements element hElement))
          inner middle note
        have hSize := List.sizeOf_lt_of_mem hElement
        refine hSmaller element ?_ (hElements element hElement)
        simp
        omega
  | object members =>
      rw [Expr.isCore, Expr.membersAreCore_eq,
        List.all_eq_true] at hCore
      refine faithful_object (fun member hMember => ?_) note
      rcases Member.exists_of_isPlainWith (hCore member hMember) with
        ⟨key, computed, value, span, comments, rfl, hPlain, hValue⟩
      have hSize := List.sizeOf_lt_of_mem hMember
      refine ⟨hPlain, Expr.not_isUndefined_of_isCore hValue,
        hSmaller value ?_ hValue⟩
      simp at hSize ⊢
      omega
  | array elements =>
      simp only [Expr.isCore, Bool.and_eq_true,
        decide_eq_true_eq] at hCore
      refine faithful_array hVersion (fun element hElement => ?_)
        hCore.2 note
      have hSize := List.sizeOf_lt_of_mem hElement
      have hContent := element.sizeOf_content_le
      refine hSmaller element.content ?_
        (Expr.isCore_content_of_mem hCore.1 hElement)
      simp
      omega
  | logical op left right =>
      refine faithful_logical hCore fun leaf hLeaf => ?_
      have hSize := List.sizeOf_lt_of_mem hLeaf
      have hLeaves := Chain.sizeOf_leaves op left right note
      exact hSmaller leaf (hSize.trans hLeaves)
        (Chain.isCore_closedUnder.of_mem_leaves hCore hLeaf)
  | conditional test consequent alternate =>
      simp only [Expr.isCore, Bool.and_eq_true] at hCore
      refine faithful_conditional (hSmaller test ?_ hCore.1.1)
        (hSmaller consequent ?_ hCore.1.2)
        (hSmaller alternate ?_ hCore.2) note
      all_goals
        simp
        omega
  | _ => cases hCore

/-
  The induction is on the size of the expression, as the leaves of a
  chain are not its immediate parts.
-/
theorem faithful_of_isCore
    (hVersion : compiler.version = validator.version)
    (e : Expr)
    (hCore : e.isCore = true) :
    Faithful compiler expand validator e := by
  induction hSize : sizeOf e using Nat.strongRecOn generalizing e with
  | ind size ih =>
      apply faithful_of_smaller hVersion hCore
      intro part hPart hPartCore
      exact ih (sizeOf part) (hSize ▸ hPart) part hPartCore rfl

/-
  Compiling an expression of the core under the names given from the
  start succeeds and names nothing, and the schema accepts exactly
  the documents that the expression means. This is so for every
  draft, and whatever texts fit a pattern or conform to a format.
-/
theorem compile_preserves_meaning
    (compiler : Compiler)
    (fits : String → String → Bool)
    (conforms : String → Document → Bool)
    (e : Expr)
    (hCore : e.isCore = true) :
    ∃ schema,
      outcome (compile compiler e) Registry.initial =
          (.ok schema, Registry.initial) ∧
        ∀ v,
          Validator.accepts ⟨compiler.version, fits, conforms⟩
              schema v = true ↔
            e.Means ⟨compiler.version, fits, conforms⟩ v := by
  have hFaithful :
      Faithful compiler (expandDeclared compiler Registry.initial)
        ⟨compiler.version, fits, conforms⟩ e :=
    faithful_of_isCore rfl e hCore
  rcases hFaithful with ⟨schema, hYields, -, hAccepts⟩
  exact ⟨schema, hYields, hAccepts⟩

/-
  An array of an object first and strings behind it. The object's
  name stands there twice, and the second time it is optional and
  lists constants.
-/
def labelled : Expr :=
  let name : Expr := ⟨.identifier "string", {}⟩
  let label : Expr :=
    ⟨.logical .or ⟨.string "a", {}⟩ ⟨.null, {}⟩, {}⟩
  ⟨.array
    [⟨.object
        [.property (.identifier "label") false name {} {},
          .property (.string "label") true label {} {}], {}⟩,
      ⟨.spread name, {}⟩], {}⟩

/- Its schema: only the second label counts. -/
def labelledSchema : Schema :=
  let typed (name : String) : Schema := .object (.single "type" (.string name))
  let constant : Schema := .object (.single "const" (.string "a"))
  let label : Schema :=
    .object (.single "anyOf" (.array [constant, typed "null"]))
  let item : Schema :=
    .object
      (.of
        [("type", .string "object"), ("additionalProperties", .bool false),
          ("required", .array []),
          ("properties", .object (.single "label" label))])
  .object
    (.of
      [("type", .string "array"), ("prefixItems", .array [item]),
        ("items", typed "string")])

/- A validator for which every text fits. -/
def lenient : Validator :=
  ⟨.draft2020, fun _ _ => true, fun _ _ => true⟩

theorem outcome_compile_labelled :
    outcome (compile { version := .draft2020 } labelled) Registry.initial =
      (.ok labelledSchema, Registry.initial) := by
  rw [outcome_compile]
  simp only [labelled, expr, array, arrayFault?, tuple, rest, memberList,
    propertyInto, resolve, Key.propertyName, List.filter, Expr.isSpread]
  rfl

theorem compile_preserves_meaning_labelled :
    labelled.isCore = true ∧
      outcome (compile { version := .draft2020 } labelled)
          Registry.initial = (.ok labelledSchema, Registry.initial) ∧
      (∀ v,
        lenient.accepts labelledSchema v = true ↔
          labelled.Means lenient v) ∧
      labelled.Means lenient
        (.array [.object (.single "label" (.string "a")), .string "b"]) ∧
      ¬ labelled.Means lenient
        (.array [.object (.single "label" (.string "b"))]) := by
  have hCore : labelled.isCore = true := by decide
  rcases compile_preserves_meaning { version := .draft2020 }
      (fun _ _ => true) (fun _ _ => true) labelled hCore with
    ⟨schema, hOutcome, hAccepts⟩
  cases outcome_compile_labelled.symm.trans hOutcome
  exact ⟨hCore, hOutcome, hAccepts, (hAccepts _).mp (by decide),
    fun hMeans => absurd ((hAccepts _).mpr hMeans) (by decide)⟩

end Compile

end SchemaLang
