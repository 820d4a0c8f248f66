import Mathlib.Data.List.Forall2
import Mathlib.Tactic.Common
import SchemaLang.Compile.Chain

/-
  Chains of one operator. What is said of the nodes of a chain one
  by one is true of all its leaves, and such a chain has no fault.

  Main declarations:
    * `Chain.forall₂_of_constants?`
    * `Chain.admits`
    * `Chain.ClosedUnder`
    * `Chain.ClosedUnder.fault?_eq_none`
    * `Chain.ClosedUnder.of_mem_leaves`
-/

namespace SchemaLang

namespace Chain

/-
  Whether an operand may stand in a chain of an operator: a chain
  without parentheses has to be one of the same operator.
-/
def admits
    (op : LogicalOp) : Expr → Bool
  | ⟨.logical other _ _, note⟩ => note.parenthesized || other == op
  | _ => true

/-
  A class of expressions in which chains have one operator, and
  whose chains have operands in the class.
-/
def ClosedUnder
    (inClass : Expr → Bool) : Prop :=
  ∀ op left right note,
    inClass ⟨.logical op left right, note⟩ = true →
      op ≠ .nullish ∧
        (admits op left = true ∧ inClass left = true) ∧
        (admits op right = true ∧ inClass right = true)

/- A chain has a leaf. -/
theorem leavesAt_ne_nil
    (whole : Bool)
    (e : Expr) :
    leavesAt whole e ≠ [] := by
  fun_induction leavesAt whole e with
  | case1 => simp
  | case2 _ _ _ _ _ _ ihLeft _ => simp [ihLeft]
  | case3 => simp

/- Constants that are given are those of the leaves, one by one. -/
theorem forall₂_of_constants?
    {leaves : List Expr}
    {constants : List Constant}
    (hConstants : constants? leaves = some constants) :
    List.Forall₂ (fun leaf constant => Constant.of? leaf = some constant)
      leaves constants := by
  induction leaves generalizing constants with
  | nil =>
      cases hConstants
      exact .nil
  | cons leaf rest ih =>
      unfold constants? at hConstants
      split at hConstants
      · rename_i first others hFirst hOthers
        cases hConstants
        exact .cons hFirst (ih hOthers)
      · cases hConstants

/- Constants are given if each leaf is one. -/
theorem isSome_constants?_iff
    {leaves : List Expr} :
    (constants? leaves).isSome = true ↔
      ∀ leaf ∈ leaves, (Constant.of? leaf).isSome = true := by
  induction leaves with
  | nil => simp [constants?]
  | cons leaf rest ih =>
      rw [List.forall_mem_cons, ← ih, constants?]
      cases Constant.of? leaf with
      | none => simp
      | some first =>
          cases constants? rest with
          | none => simp
          | some others => simp

namespace ClosedUnder

variable {inClass : Expr → Bool}

/- An operand has no fault, and its leaves are in the class. -/
theorem operand
    (hClosed : ClosedUnder inClass)
    {op : LogicalOp}
    (hOp : op ≠ .nullish)
    (e : Expr)
    (hAdmits : admits op e = true)
    (hClass : inClass e = true) :
    faultAt? op false e = none ∧
      ∀ leaf ∈ leavesAt false e, inClass leaf = true := by
  generalize hWhole : false = whole
  fun_induction leavesAt whole e with
  | case1 whole other left right note hGroup =>
      subst hWhole
      simp only [Bool.not_false, Bool.and_true] at hGroup
      exact ⟨by simp [faultAt?, hGroup], by simpa using hClass⟩
  | case2 whole other left right note hChain ihLeft ihRight =>
      subst hWhole
      simp only [Bool.not_false, Bool.and_true] at hChain
      have hSame : other = op := by
        simpa [admits, hChain] using hAdmits
      subst hSame
      rcases hClosed _ _ _ _ hClass with ⟨-, hLeft, hRight⟩
      have hFirst := ihLeft hLeft.1 hLeft.2 rfl
      have hSecond := ihRight hRight.1 hRight.2 rfl
      refine ⟨?_, ?_⟩
      · simp [faultAt?, hChain, operatorFault?, hOp, hFirst.1,
          hSecond.1]
      · intro leaf hLeaf
        rcases List.mem_append.mp hLeaf with hLeaf | hLeaf
        · exact hFirst.2 leaf hLeaf
        · exact hSecond.2 leaf hLeaf
  | case3 whole leaf hLeaf =>
      refine ⟨?_, by simpa using hClass⟩
      unfold faultAt?
      split
      · rename_i other left right note
        exact absurd rfl (hLeaf other left right note)
      · rfl

/- A chain in the class has no fault. -/
theorem fault?_eq_none
    (hClosed : ClosedUnder inClass)
    {op : LogicalOp}
    {left right : Expr}
    {note : Note}
    (hClass : inClass ⟨.logical op left right, note⟩ = true) :
    fault? op ⟨.logical op left right, note⟩ = none := by
  rcases hClosed _ _ _ _ hClass with ⟨hOp, hLeft, hRight⟩
  have hFirst := hClosed.operand hOp left hLeft.1 hLeft.2
  have hSecond := hClosed.operand hOp right hRight.1 hRight.2
  simp [fault?, faultAt?, operatorFault?, hOp, hFirst.1, hSecond.1]

/- The leaves of a chain in the class are in the class. -/
theorem of_mem_leaves
    (hClosed : ClosedUnder inClass)
    {op : LogicalOp}
    {left right leaf : Expr}
    {note : Note}
    (hClass : inClass ⟨.logical op left right, note⟩ = true)
    (hLeaf : leaf ∈ leaves ⟨.logical op left right, note⟩) :
    inClass leaf = true := by
  rcases hClosed _ _ _ _ hClass with ⟨hOp, hLeft, hRight⟩
  have hFirst := hClosed.operand hOp left hLeft.1 hLeft.2
  have hSecond := hClosed.operand hOp right hRight.1 hRight.2
  simp only [leaves, leavesAt, Bool.not_true, Bool.and_false,
    Bool.false_eq_true, if_false, List.mem_append] at hLeaf
  rcases hLeaf with hLeaf | hLeaf
  · exact hFirst.2 leaf hLeaf
  · exact hSecond.2 leaf hLeaf

end ClosedUnder

end Chain

end SchemaLang
