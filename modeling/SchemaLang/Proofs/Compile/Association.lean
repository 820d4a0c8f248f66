import SchemaLang.Proofs.Compile.Leaves
import SchemaLang.Proofs.Compile.Outcome

/-
  Chains and the way they are grouped. A chain is a tree of operators
  with operands at its ends. Which operators it has decides whether it
  is refused, before any operand is looked at. What it is compiled to
  is decided by its operands in the order of the text, and not by the
  way in which the operators group them.

  Main declarations:
    * `Chain.Tree` and `Chain.Whole`
    * `Chain.Whole.exists_expr_eq`
    * `Chain.Whole.fault?_expr` and `Chain.Whole.leaves_expr`
    * `Compile.joined` and `Compile.expr_of_unmixed`
    * `Compile.chain_depends_on_operands`
-/

namespace SchemaLang

/-
  Whether an expression is one operand of a chain: it is no chain
  itself, or it stands in parentheses.
-/
def Expr.isOperand : Expr → Bool
  | ⟨.logical _ _ _, note⟩ => note.parenthesized
  | _ => true

namespace Chain

------------------------------------------------------------
-- Chains As Trees
------------------------------------------------------------

/- An operator of a chain, and where it was written. -/
structure Joint where
  op : LogicalOp
  span : Span := {}
  comments : Comments := {}

/- The expression that joins two others. -/
def Joint.expr
    (joint : Joint)
    (parenthesized : Bool)
    (left right : Expr) : Expr :=
  ⟨.logical joint.op left right,
    ⟨joint.span, joint.comments, parenthesized⟩⟩

/- A part of a chain. No parentheses are left but those of operands. -/
inductive Tree
  | operand (e : Expr) (hOperand : e.isOperand = true)
  | join (joint : Joint) (left right : Tree)

namespace Tree

/- The expression that a part of a chain is. -/
def expr : Tree → Expr
  | operand e _ => e
  | join joint left right => joint.expr false left.expr right.expr

/- The operands of a part, in the order of the text. -/
def operands : Tree → List Expr
  | operand e _ => [e]
  | join _ left right => left.operands ++ right.operands

/- The operators of a part, each before those of its sides. -/
def joints : Tree → List Joint
  | operand _ _ => []
  | join joint left right => joint :: (left.joints ++ right.joints)

/- The part with an empty text for each of its operands. -/
def blank : Tree → Tree
  | operand _ _ => operand ⟨.string "", {}⟩ rfl
  | join joint left right => join joint left.blank right.blank

theorem joints_blank
    (tree : Tree) :
    tree.blank.joints = tree.joints := by
  induction tree with
  | operand e hOperand => rfl
  | join joint left right ihLeft ihRight =>
      simp only [blank, joints, ihLeft, ihRight]

theorem mem_operands_blank
    {tree : Tree}
    {e : Expr}
    (hOperand : e ∈ tree.blank.operands) :
    e = ⟨.string "", {}⟩ := by
  induction tree with
  | operand other hOther =>
      exact List.mem_singleton.mp hOperand
  | join joint left right ihLeft ihRight =>
      rcases List.mem_append.mp hOperand with hLeft | hRight
      · exact ihLeft hLeft
      · exact ihRight hRight

/- Every expression is a part of a chain, if only one operand. -/
theorem exists_expr_eq
    (e : Expr) :
    ∃ tree : Tree, tree.expr = e := by
  generalize hWhole : false = whole
  fun_induction leavesAt whole e with
  | case1 whole op left right note hGroup =>
      subst hWhole
      rw [Bool.not_false, Bool.and_true] at hGroup
      exact ⟨.operand ⟨.logical op left right, note⟩ hGroup, rfl⟩
  | case2 whole op left right note hChain ihLeft ihRight =>
      subst hWhole
      rw [Bool.not_false, Bool.and_true, Bool.not_eq_true] at hChain
      rcases ihLeft rfl with ⟨first, hFirst⟩
      rcases ihRight rfl with ⟨second, hSecond⟩
      refine ⟨.join ⟨op, note.span, note.comments⟩ first second, ?_⟩
      rw [expr, hFirst, hSecond, Joint.expr, ← hChain]
  | case3 e whole hOther =>
      have hOperand : e.isOperand = true := by
        unfold Expr.isOperand
        split
        · rename_i op left right note
          exact absurd rfl (hOther op left right note)
        · rfl
      exact ⟨.operand e hOperand, rfl⟩

end Tree

/- A chain. It may stand in parentheses, too. -/
structure Whole where
  joint : Joint
  left : Tree
  right : Tree
  parenthesized : Bool := false

namespace Whole

/- The expression that a chain is. -/
def expr
    (chain : Whole) : Expr :=
  chain.joint.expr chain.parenthesized chain.left.expr chain.right.expr

/- The operator of a chain. -/
def op
    (chain : Whole) : LogicalOp :=
  chain.joint.op

/- The operands of a chain, in the order of the text. -/
def operands
    (chain : Whole) : List Expr :=
  chain.left.operands ++ chain.right.operands

/- The operators of a chain, its own one first. -/
def joints
    (chain : Whole) : List Joint :=
  chain.joint :: (chain.left.joints ++ chain.right.joints)

/- Some operator is `??` or differs from the chain's own one. -/
def IsMixed
    (chain : Whole) : Prop :=
  ∃ joint ∈ chain.joints, joint.op = .nullish ∨ joint.op ≠ chain.op

/- All operands are cases, and one of them is to be chosen. -/
def IsSwitch
    (chain : Whole) : Prop :=
  chain.op = .or ∧ ∀ e ∈ chain.operands, isCase e = true

/- All operands are constants, and each of them is accepted. -/
def IsEnumeration
    (chain : Whole) : Prop :=
  chain.op = .or ∧ ∀ e ∈ chain.operands, (Constant.of? e).isSome = true

/- The chain with an empty text for each of its operands. -/
def blank
    (chain : Whole) : Whole :=
  { chain with left := chain.left.blank, right := chain.right.blank }

theorem joints_blank
    (chain : Whole) :
    chain.blank.joints = chain.joints := by
  unfold joints blank
  rw [Tree.joints_blank, Tree.joints_blank]

theorem mem_operands_blank
    {chain : Whole}
    {e : Expr}
    (hOperand : e ∈ chain.blank.operands) :
    e = ⟨.string "", {}⟩ := by
  rcases List.mem_append.mp hOperand with hLeft | hRight
  · exact Tree.mem_operands_blank hLeft
  · exact Tree.mem_operands_blank hRight

/- Every expression with such an operator is a chain. -/
theorem exists_expr_eq
    (op : LogicalOp)
    (left right : Expr)
    (note : Note) :
    ∃ chain : Whole, chain.expr = ⟨.logical op left right, note⟩ := by
  rcases Tree.exists_expr_eq left with ⟨first, rfl⟩
  rcases Tree.exists_expr_eq right with ⟨second, rfl⟩
  exact ⟨⟨⟨op, note.span, note.comments⟩, first, second,
    note.parenthesized⟩, rfl⟩

end Whole

------------------------------------------------------------
-- Operators And Operands
------------------------------------------------------------

/- What is wrong with an operator of a chain. -/
def Joint.fault?
    (root : LogicalOp)
    (joint : Joint) : Option CompileError :=
  (operatorFault? root joint.op).map fun cause => ⟨cause, joint.span⟩

theorem Joint.fault?_eq_none_iff
    {root : LogicalOp}
    {joint : Joint} :
    joint.fault? root = none ↔ joint.op ≠ .nullish ∧ joint.op = root := by
  unfold Joint.fault? operatorFault?
  rw [Option.map_eq_none_iff]
  by_cases hNullish : joint.op = .nullish
  · simp [hNullish]
  · by_cases hRoot : joint.op = root
    · simp [hRoot]
    · simp [hNullish, hRoot]

/- An operator that does not belong to a chain is an error of syntax. -/
theorem Joint.sort_of_fault?
    {root : LogicalOp}
    {joint : Joint}
    {error : CompileError}
    (hFault : joint.fault? root = some error) :
    error.cause.sort = .syntactic := by
  rcases Option.map_eq_some_iff.mp hFault with ⟨cause, hCause, rfl⟩
  unfold operatorFault? at hCause
  split at hCause
  · cases hCause
    rfl
  · split at hCause
    · cases hCause
    · cases hCause
      rfl

/- At a joint that is taken apart, its own fault is the first one. -/
theorem faultAt?_joint
    {root : LogicalOp}
    {whole parenthesized : Bool}
    (hApart : (parenthesized && !whole) = false)
    (joint : Joint)
    (left right : Expr) :
    faultAt? root whole (joint.expr parenthesized left right) =
      (joint.fault? root).or
        ((faultAt? root false left).or (faultAt? root false right)) := by
  unfold Joint.expr Joint.fault?
  rw [faultAt?]
  dsimp only
  rw [hApart, if_neg (by decide)]
  cases operatorFault? root joint.op with
  | none => rfl
  | some cause => rfl

theorem leavesAt_joint
    {whole parenthesized : Bool}
    (hApart : (parenthesized && !whole) = false)
    (joint : Joint)
    (left right : Expr) :
    leavesAt whole (joint.expr parenthesized left right) =
      leavesAt false left ++ leavesAt false right := by
  unfold Joint.expr
  rw [leavesAt]
  dsimp only
  rw [hApart, if_neg (by decide)]

/- An operand is not taken apart. -/
theorem faultAt?_operand
    (root : LogicalOp)
    {e : Expr}
    (hOperand : e.isOperand = true) :
    faultAt? root false e = none := by
  unfold faultAt?
  split
  · rename_i op left right note
    have hGroup : note.parenthesized = true := hOperand
    rw [hGroup, if_pos (by decide)]
  · rfl

theorem leavesAt_operand
    {e : Expr}
    (hOperand : e.isOperand = true) :
    leavesAt false e = [e] := by
  unfold leavesAt
  split
  · rename_i op left right note
    have hGroup : note.parenthesized = true := hOperand
    rw [hGroup, if_pos (by decide)]
  · rfl

theorem Tree.faultAt?_expr
    (root : LogicalOp)
    (tree : Tree) :
    faultAt? root false tree.expr =
      tree.joints.findSome? (Joint.fault? root) := by
  induction tree with
  | operand e hOperand => exact faultAt?_operand root hOperand
  | join joint left right ihLeft ihRight =>
      rw [expr, faultAt?_joint rfl, ihLeft, ihRight, joints,
        List.findSome?_cons, List.findSome?_append]
      cases joint.fault? root with
      | none => rfl
      | some error => rfl

theorem Tree.leavesAt_expr
    (tree : Tree) :
    leavesAt false tree.expr = tree.operands := by
  induction tree with
  | operand e hOperand => exact leavesAt_operand hOperand
  | join joint left right ihLeft ihRight =>
      rw [expr, leavesAt_joint rfl, ihLeft, ihRight, operands]

namespace Whole

variable {chain : Whole}

/- The fault of a chain is that of its first operator with one. -/
theorem fault?_expr
    (root : LogicalOp)
    (chain : Whole) :
    fault? root chain.expr =
      chain.joints.findSome? (Joint.fault? root) := by
  unfold fault? expr
  rw [faultAt?_joint (Bool.and_false _), Tree.faultAt?_expr,
    Tree.faultAt?_expr, joints, List.findSome?_cons,
    List.findSome?_append]
  cases chain.joint.fault? root with
  | none => rfl
  | some error => rfl

theorem leaves_expr
    (chain : Whole) :
    leaves chain.expr = chain.operands := by
  unfold leaves expr
  rw [leavesAt_joint (Bool.and_false _), Tree.leavesAt_expr,
    Tree.leavesAt_expr, operands]

/- A chain has no fault exactly if it is not mixed. -/
theorem fault?_eq_none_iff :
    fault? chain.op chain.expr = none ↔ ¬ chain.IsMixed := by
  rw [fault?_expr, List.findSome?_eq_none_iff]
  unfold IsMixed
  push Not
  constructor
  · intro hNone joint hJoint
    exact Joint.fault?_eq_none_iff.mp (hNone joint hJoint)
  · intro hSame joint hJoint
    exact Joint.fault?_eq_none_iff.mpr (hSame joint hJoint)

theorem operands_ne_nil
    (chain : Whole) :
    chain.operands ≠ [] := by
  rw [← leaves_expr]
  exact leavesAt_ne_nil true _

/- Whether a chain is mixed does not depend on its operands. -/
theorem isMixed_iff_of_joints
    {other : Whole}
    (hJoints : other.joints = chain.joints) :
    other.IsMixed ↔ chain.IsMixed := by
  have hOp : other.op = chain.op :=
    congrArg Joint.op (List.cons.inj hJoints).1
  unfold IsMixed
  rw [hJoints, hOp]

end Whole

end Chain

------------------------------------------------------------
-- Compiled Chains
------------------------------------------------------------

namespace Compile

open Chain

variable {compiler : Compiler}
variable {expand : Expand}

/- Compile operands that are joined by one operator. -/
def joined
    (compiler : Compiler)
    (expand : Expand)
    (op : LogicalOp)
    (operands : List Expr) : Compile Schema :=
  if op = .or && operands.all isCase then do
    let cases ← cases compiler expand operands
    pure (switch cases)
  else
    match (if op = .or then constants? operands else none) with
    | some constants => pure (enumeration constants)
    | none => do
      let branches ← all compiler expand operands
      pure (.object (.single (branchKey op) (.array branches)))

/- A mixed chain is refused, for a reason that its operators give. -/
theorem expr_of_fault?
    {chain : Whole}
    {error : CompileError}
    (hFault :
      chain.joints.findSome? (Joint.fault? chain.op) = some error) :
    expr compiler expand chain.expr = throw error := by
  have hWhole : fault? chain.op chain.expr = some error := by
    rw [Whole.fault?_expr, hFault]
  unfold Whole.expr Joint.expr at hWhole ⊢
  rw [expr]
  unfold Whole.op at hWhole
  rw [hWhole]

/- Any other chain is compiled by its operands. -/
theorem expr_of_unmixed
    {chain : Whole}
    (hUnmixed : ¬ chain.IsMixed) :
    expr compiler expand chain.expr =
      joined compiler expand chain.op chain.operands := by
  have hNone := Whole.fault?_eq_none_iff.mpr hUnmixed
  have hLeaves := Whole.leaves_expr chain
  unfold Whole.expr Joint.expr at hNone hLeaves ⊢
  unfold Whole.op at hNone ⊢
  rw [expr, hNone, hLeaves]
  rfl

theorem all_eq_mapM
    (es : List Expr) :
    all compiler expand es = es.mapM (expr compiler expand) := by
  induction es with
  | nil =>
      rw [all]
      rfl
  | cons e rest ih => rw [all, ih, List.mapM_cons]

/- Operands that are neither cases nor constants are branches. -/
theorem joined_branches
    {chain : Whole}
    (hSwitch : ¬ chain.IsSwitch)
    (hEnumeration : ¬ chain.IsEnumeration) :
    joined compiler expand chain.op chain.operands = (do
      let branches ← chain.operands.mapM (expr compiler expand)
      pure (.object (.single (branchKey chain.op) (.array branches)))) := by
  have hCases :
      (decide (chain.op = .or) && chain.operands.all isCase) = false := by
    rw [← Bool.not_eq_true, Bool.and_eq_true, decide_eq_true_iff,
      List.all_eq_true]
    exact hSwitch
  have hConstants :
      (if chain.op = .or then constants? chain.operands else none) =
        none := by
    split
    · rename_i hOr
      rw [← Option.not_isSome_iff_eq_none, isSome_constants?_iff]
      intro hAll
      exact hEnumeration ⟨hOr, hAll⟩
    · rfl
  unfold joined
  rw [hCases, if_neg (by decide), hConstants, all_eq_mapM]

/- Empty texts are compiled, whatever joins them. -/
theorem joined_blank
    (compiler : Compiler)
    (expand : Expand)
    (op : LogicalOp)
    {es : List Expr}
    (hNonempty : es ≠ [])
    (hBlank : ∀ e ∈ es, e = ⟨.string "", {}⟩) :
    ∃ schema, joined compiler expand op es = pure schema := by
  have hBranches : ∃ branches, all compiler expand es = pure branches := by
    clear hNonempty
    induction es with
    | nil =>
        rw [all]
        exact ⟨[], rfl⟩
    | cons e rest ih =>
        rw [List.forall_mem_cons] at hBlank
        rcases ih hBlank.2 with ⟨others, hOthers⟩
        rw [all, hBlank.1, expr, hOthers]
        exact ⟨_, rfl⟩
  have hCases : es.all isCase = false := by
    rcases List.exists_mem_of_ne_nil es hNonempty with ⟨e, hMember⟩
    rw [List.all_eq_false]
    refine ⟨e, hMember, ?_⟩
    rw [hBlank e hMember]
    decide
  unfold joined
  rw [hCases, Bool.and_false, if_neg (by decide)]
  split
  · exact ⟨_, rfl⟩
  · rcases hBranches with ⟨branches, hAll⟩
    rw [hAll]
    exact ⟨_, rfl⟩

/-
  A chain is refused for a reason of syntax, and nothing else is done:
  the same error ends every chain with these operators, whatever its
  operands are.
-/
def RefusedUnread
    (chain : Whole) : Prop :=
  ∃ error : CompileError,
    error.cause.sort = .syntactic ∧
      ∀ other : Whole, other.joints = chain.joints →
        ∀ compiler expand,
          expr compiler expand other.expr = throw error

theorem refusedUnread_iff
    (chain : Whole) :
    RefusedUnread chain ↔ chain.IsMixed := by
  constructor
  · rintro ⟨error, -, hRefused⟩
    by_contra hUnmixed
    -- With empty texts for its operands the chain would be compiled.
    have hBlank : ¬ chain.blank.IsMixed := by
      rw [Whole.isMixed_iff_of_joints chain.joints_blank]
      exact hUnmixed
    have hThrows := hRefused chain.blank chain.joints_blank {} fun _ _ _ =>
      pure .null
    rcases joined_blank {} (fun _ _ _ => pure .null) chain.blank.op
        chain.blank.operands_ne_nil
        (fun _ hOperand => Whole.mem_operands_blank hOperand) with
      ⟨schema, hSchema⟩
    rw [expr_of_unmixed hBlank, hSchema] at hThrows
    have hEnds := congrArg (fun computation => outcome computation .empty)
      hThrows
    rw [outcome_pure, outcome_throw] at hEnds
    cases hEnds
  · intro hMixed
    cases hFault : chain.joints.findSome? (Joint.fault? chain.op) with
    | none =>
        rw [← Whole.fault?_expr, Whole.fault?_eq_none_iff] at hFault
        exact absurd hMixed hFault
    | some error =>
        refine ⟨error, ?_, fun other hJoints compiler expand => ?_⟩
        · rcases List.exists_of_findSome?_eq_some hFault with
            ⟨joint, -, hJoint⟩
          exact Joint.sort_of_fault? hJoint
        · apply expr_of_fault?
          have hOp : other.op = chain.op :=
            congrArg Joint.op (List.cons.inj hJoints).1
          rw [hJoints, hOp, hFault]

/-
  Every expression with a logical operator is a chain. A chain is
  refused unread exactly if it is mixed. Otherwise every chain of the
  same operator and operands is compiled as it is, with the same names
  given on the way; and unless it is a switch or an enumeration, its
  branches are its operands, compiled one by one in the order of the
  text.
-/
theorem chain_depends_on_operands :
    (∀ op left right note, ∃ chain : Whole,
      chain.expr = ⟨.logical op left right, note⟩) ∧
    ∀ chain : Whole,
      (RefusedUnread chain ↔ chain.IsMixed) ∧
      (¬ chain.IsMixed →
        ∀ compiler expand,
          (∀ other : Whole,
            ¬ other.IsMixed →
              other.op = chain.op →
                other.operands = chain.operands →
                  expr compiler expand other.expr =
                    expr compiler expand chain.expr) ∧
          (¬ chain.IsSwitch →
            ¬ chain.IsEnumeration →
              expr compiler expand chain.expr = (do
                let branches ←
                  chain.operands.mapM (expr compiler expand)
                pure (.object
                  (.single
                    (if chain.op = .and then "allOf" else "anyOf")
                    (.array branches)))))) := by
  refine ⟨Whole.exists_expr_eq, fun chain => ?_⟩
  refine ⟨refusedUnread_iff chain, ?_⟩
  intro hUnmixed compiler expand
  rw [expr_of_unmixed hUnmixed]
  constructor
  · intro other hOther hOp hOperands
    rw [expr_of_unmixed hOther, hOp, hOperands]
  · intro hSwitch hEnumeration
    have hKey :
        branchKey chain.op =
          if chain.op = .and then "allOf" else "anyOf" := by
      cases chain.op with
      | or => rfl
      | and => rfl
      | nullish => rfl
    rw [joined_branches hSwitch hEnumeration, hKey]

end Compile

end SchemaLang
