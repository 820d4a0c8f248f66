import Mathlib.Data.List.Forall2
import SchemaLang.Proofs.Core.Faithful

/-
  Chains and conditionals accept what they say. A chain says of its
  leaves what its operator says of its operands, and constants that
  are listed say the same as their leaves.

  Main declarations:
    * `Chain.Joins`
    * `Chain.joins_leaves`
    * `Compile.faithful_logical`
    * `Compile.faithful_conditional`
-/

namespace SchemaLang

------------------------------------------------------------
-- Leaves Of Chains
------------------------------------------------------------

namespace Chain

/- What an operator says of all that it joins. -/
def Joins {α : Type}
    (op : LogicalOp)
    (operands : List α)
    (means : α → Prop) : Prop :=
  match op with
  | .and => ∀ operand ∈ operands, means operand
  | _ => ∃ operand ∈ operands, means operand

theorem joins_singleton {α : Type}
    (op : LogicalOp)
    (operand : α)
    (means : α → Prop) :
    Joins op [operand] means ↔ means operand := by
  cases op <;> simp [Joins]

/- What is said in pairs is said of both. -/
theorem joins_of_forall₂ {α β : Type}
    {first : α → Prop}
    {second : β → Prop}
    {operands : List α}
    {others : List β}
    (op : LogicalOp)
    (hSame :
      List.Forall₂ (fun a b => first a ↔ second b) operands others) :
    Joins op operands first ↔ Joins op others second := by
  induction hSame with
  | nil => cases op <;> simp [Joins]
  | cons hFirst _ ih =>
      cases op <;> simp only [Joins] at ih ⊢ <;> simp [hFirst, ih]

variable {validator : Validator}

/- A chain joins what its operands join. -/
theorem joins_append
    {op : LogicalOp}
    (hOp : op ≠ .nullish)
    {left right : Expr}
    (note : Note)
    (v : Document)
    {first second : List Expr}
    (hLeft :
      left.Means validator v ↔
        Joins op first fun leaf => leaf.Means validator v)
    (hRight :
      right.Means validator v ↔
        Joins op second fun leaf => leaf.Means validator v) :
    Expr.Means validator ⟨.logical op left right, note⟩ v ↔
      Joins op (first ++ second) fun leaf =>
        leaf.Means validator v := by
  cases op with
  | or =>
      simp only [Expr.Means, hLeft, hRight, Joins, List.mem_append,
        or_and_right, exists_or]
  | and =>
      simp only [Expr.Means, hLeft, hRight, Joins, List.mem_append,
        or_imp, forall_and]
  | nullish => exact absurd rfl hOp

/- An operand of a chain says what its leaves say together. -/
theorem joins_leavesAt
    {op : LogicalOp}
    (hOp : op ≠ .nullish)
    (e : Expr)
    (hAdmits : admits op e = true)
    (hCore : e.isCore = true)
    (hClosed : ClosedUnder Expr.isCore)
    (v : Document) :
    e.Means validator v ↔
      Joins op (leavesAt false e) fun leaf =>
        leaf.Means validator v := by
  generalize hWhole : false = whole
  fun_induction leavesAt whole e with
  | case1 => rw [joins_singleton]
  | case2 whole other left right note hChain ihLeft ihRight =>
      subst hWhole
      simp only [Bool.not_false, Bool.and_true] at hChain
      have hSame : other = op := by
        simpa [admits, hChain] using hAdmits
      subst hSame
      rcases hClosed _ _ _ _ hCore with ⟨-, hLeft, hRight⟩
      exact joins_append hOp note v (ihLeft hLeft.1 hLeft.2 rfl)
        (ihRight hRight.1 hRight.2 rfl)
  | case3 => rw [joins_singleton]

theorem isCore_closedUnder :
    ClosedUnder Expr.isCore := by
  intro op left right note hCore
  simp only [Expr.isCore, Bool.and_eq_true, bne_iff_ne] at hCore
  rcases hCore with ⟨⟨⟨⟨hOp, hLeft⟩, hRight⟩, hFirst⟩, hSecond⟩
  exact ⟨hOp, ⟨hLeft, hFirst⟩, hRight, hSecond⟩

/- A chain says what its leaves say together. -/
theorem joins_leaves
    {op : LogicalOp}
    {left right : Expr}
    {note : Note}
    (hCore : Expr.isCore ⟨.logical op left right, note⟩ = true)
    (v : Document) :
    Expr.Means validator ⟨.logical op left right, note⟩ v ↔
      Joins op (leaves ⟨.logical op left right, note⟩) fun leaf =>
        leaf.Means validator v := by
  rcases isCore_closedUnder _ _ _ _ hCore with ⟨hOp, hLeft, hRight⟩
  have hLeaves :
      leaves ⟨.logical op left right, note⟩ =
        leavesAt false left ++ leavesAt false right := by
    simp [leaves, leavesAt]
  rw [hLeaves]
  exact joins_append hOp note v
    (joins_leavesAt hOp left hLeft.1 hLeft.2 isCore_closedUnder v)
    (joins_leavesAt hOp right hRight.1 hRight.2 isCore_closedUnder v)

/- The core has no cases. -/
theorem isCase_eq_false_of_isCore
    {e : Expr}
    (hCore : e.isCore = true) :
    isCase e = false := by
  unfold isCase
  split
  · simp [Expr.isCore, Expr.isBuiltinName, Expr.referenceName,
      Expr.dashedName] at hCore
  · rfl

------------------------------------------------------------
-- Constants
------------------------------------------------------------

/- The name of null means null. -/
theorem isNamed_null_iff
    (note : Note)
    (v : Document) :
    Expr.IsNamed validator ⟨.null, note⟩ v ↔ v = .null := by
  have hNull :
      Registry.builtins.get? "null" = some nullSchema := rfl
  rw [← accepts_nullSchema validator v]
  constructor
  · rintro ⟨name, schema, hName, hSchema, hAccepts⟩
    cases hName
    rw [hNull] at hSchema
    cases hSchema
    exact hAccepts
  · intro hAccepts
    exact ⟨"null", nullSchema, rfl, hNull, hAccepts⟩

/- A leaf that is a constant is a finite one, and means it. -/
theorem means_of_of?
    (validator : Validator)
    {leaf : Expr}
    {constant : Constant}
    (hOf : Constant.of? leaf = some constant) :
    constant.isFinite = true ∧
      ∀ v, constant.Means v ↔ leaf.Means validator v := by
  rcases leaf with ⟨form, note⟩
  unfold Constant.of? at hOf
  split at hOf
  · rename_i value hForm
    cases hForm
    cases hOf
    exact ⟨rfl, fun v => by rw [Expr.Means]; rfl⟩
  · rename_i hForm
    cases hForm
    cases hOf
    refine ⟨rfl, fun v => ?_⟩
    rw [Expr.Means, isNamed_null_iff]
    rfl
  · rcases Option.map_eq_some_iff.mp hOf with ⟨value, hNumber, rfl⟩
    unfold Expr.number? at hNumber
    split at hNumber
    · rename_i literal inner hForm
      cases hForm
      split at hNumber
      · rename_i hFinite
        cases hNumber
        exact ⟨hFinite, fun v => by rw [Expr.Means]; rfl⟩
      · cases hNumber
    · rename_i literal inner outer hForm
      cases hForm
      split at hNumber
      · rename_i hFinite
        cases hNumber
        refine ⟨hFinite, fun v => ?_⟩
        rw [Expr.Means, ← Binary64.value_negate]
        rfl
      · cases hNumber
    · cases hNumber

theorem isMap_enumeration
    (constants : List Constant) :
    (enumeration constants).isMap = true := by
  unfold enumeration
  simp only
  split <;> rfl

/- The enumeration of constant leaves accepts what one of them says. -/
theorem accepts_enumeration_leaves
    {leaves : List Expr}
    {constants : List Constant}
    (hConstants : constants? leaves = some constants)
    (hNonempty : leaves ≠ [])
    (v : Document) :
    validator.accepts (enumeration constants) v = true ↔
      Joins .or leaves fun leaf => leaf.Means validator v := by
  have hPairs := forall₂_of_constants? hConstants
  have hFinite :
      ∀ constant ∈ constants, constant.isFinite = true := by
    intro constant hConstant
    rcases List.mem_iff_getElem.mp hConstant with ⟨i, hLess, rfl⟩
    rw [List.forall₂_iff_get] at hPairs
    exact (means_of_of? validator
      (hPairs.2 i (hPairs.1 ▸ hLess) hLess)).1
  have hSome : constants ≠ [] := by
    rintro rfl
    cases hPairs
    exact hNonempty rfl
  rw [accepts_enumeration validator hFinite hSome]
  have hSame := joins_of_forall₂ .or
    (hPairs.imp fun leaf constant hOf =>
      ((means_of_of? validator hOf).2 v).symm)
  exact hSame.symm

end Chain

------------------------------------------------------------
-- Branches
------------------------------------------------------------

namespace Compile

variable {compiler : Compiler}
variable {expand : Expand}
variable {validator : Validator}

/- Faithful expressions are compiled one after the other. -/
theorem all_yields
    {es : List Expr}
    (hFaithful :
      ∀ e ∈ es, Faithful compiler expand validator e) :
    ∃ schemas,
      Yields Registry.initial (all compiler expand es) schemas ∧
        List.Forall₂
          (fun schema (e : Expr) =>
            validator.Denotes schema (e.Means validator))
          schemas es := by
  induction es with
  | nil =>
      rw [all]
      exact ⟨[], Yields.pure [], .nil⟩
  | cons e rest ih =>
      rcases hFaithful e (by simp) with ⟨schema, hFirst, hDenotes⟩
      rcases ih fun other hOther =>
          hFaithful other (List.mem_cons_of_mem _ hOther) with
        ⟨schemas, hRest, hAll⟩
      rw [all]
      exact ⟨schema :: schemas,
        hFirst.bind (hRest.bind (Yields.pure _)), .cons hDenotes hAll⟩

/- The branches of a chain join what they denote. -/
theorem accepts_branches
    {op : LogicalOp}
    {schemas : List Schema}
    {leaves : List Expr}
    (hOp : op ≠ .nullish)
    (hDenote :
      List.Forall₂
        (fun schema (e : Expr) =>
          validator.Denotes schema (e.Means validator))
        schemas leaves)
    (v : Document) :
    validator.accepts
        (.object (.single (Chain.branchKey op) (.array schemas))) v = true ↔
      Chain.Joins op leaves fun leaf =>
        leaf.Means validator v := by
  rw [← Chain.joins_of_forall₂ op
    (hDenote.imp fun schema e hSchema => hSchema.2 v)]
  cases op with
  | or =>
      rw [Chain.branchKey, Validator.accepts_anyOf, List.any_eq_true]
      · rfl
      · simp
  | and =>
      rw [Chain.branchKey, Validator.accepts_allOf, List.all_eq_true]
      rfl
  | nullish => exact absurd rfl hOp

theorem faithful_logical
    {op : LogicalOp}
    {left right : Expr}
    {note : Note}
    (hCore : Expr.isCore ⟨.logical op left right, note⟩ = true)
    (hLeaves :
      ∀ leaf ∈ Chain.leaves ⟨.logical op left right, note⟩,
        Faithful compiler expand validator leaf) :
    Faithful compiler expand validator
      ⟨.logical op left right, note⟩ := by
  have hClosed := Chain.isCore_closedUnder
  have hOp := (hClosed _ _ _ _ hCore).1
  have hMeans := @Chain.joins_leaves validator _ _ _ _ hCore
  have hNonempty :
      Chain.leaves ⟨.logical op left right, note⟩ ≠ [] :=
    Chain.leavesAt_ne_nil true _
  have hCases :
      (Chain.leaves ⟨.logical op left right, note⟩).all
        Chain.isCase = false := by
    rcases List.exists_mem_of_ne_nil _ hNonempty with ⟨leaf, hLeaf⟩
    rw [List.all_eq_false]
    refine ⟨leaf, hLeaf, ?_⟩
    rw [Chain.isCase_eq_false_of_isCore
      (hClosed.of_mem_leaves hCore hLeaf)]
    simp
  unfold Faithful
  rw [expr, hClosed.fault?_eq_none hCore]
  simp only [hCases, Bool.and_false, Bool.false_eq_true, if_false]
  split
  · rename_i constants hConstants
    split at hConstants
    · rename_i hOr
      subst hOr
      refine ⟨_, Yields.pure _, ?_, fun v => ?_⟩
      · exact Chain.isMap_enumeration constants
      · rw [Chain.accepts_enumeration_leaves hConstants hNonempty,
          hMeans]
    · cases hConstants
  · rcases all_yields hLeaves with ⟨schemas, hAll, hDenote⟩
    refine ⟨_, hAll.bind (Yields.pure _), rfl, fun v => ?_⟩
    rw [accepts_branches hOp hDenote, hMeans]

theorem faithful_conditional
    {test consequent alternate : Expr}
    (hTest : Faithful compiler expand validator test)
    (hConsequent : Faithful compiler expand validator consequent)
    (hAlternate : Faithful compiler expand validator alternate)
    (note : Note) :
    Faithful compiler expand validator
      ⟨.conditional test consequent alternate, note⟩ := by
  rcases hTest with ⟨first, hFirst, -, hIf⟩
  rcases hConsequent with ⟨second, hSecond, -, hThen⟩
  rcases hAlternate with ⟨third, hThird, -, hElse⟩
  unfold Faithful
  rw [expr]
  refine ⟨_, hFirst.bind (hSecond.bind (hThird.bind (Yields.pure _))),
    rfl, fun v => ?_⟩
  rw [Validator.accepts_conditional]
  simp only [Expr.Means, ← hIf, ← hThen, ← hElse]
  split
  · rename_i hHolds
    simp [hHolds]
  · rename_i hFails
    simp [hFails]

end Compile

end SchemaLang
