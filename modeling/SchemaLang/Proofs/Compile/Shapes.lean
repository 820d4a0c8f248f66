import Mathlib.Data.List.Forall2
import SchemaLang.Compile.Basic
import SchemaLang.Proofs.Expr.Likeness

/-
  What the compiler reads off expressions that are alike: their chains
  have leaves that are alike, their ranges have the same limits, and
  the same is wrong with them.

  Main declarations:
    * `CompileError.Like`
    * `Likeness.leaves` and `Likeness.fault?`
    * `Likeness.constants?` and `Chain.enumeration_eq`
    * `Likeness.limited?` and `Limited.Like.apply`
    * `Likeness.arrayFault?`
-/

namespace SchemaLang

/- Two errors have the same cause, at places that are related. -/
def CompileError.Like
    (located : Span → Span → Prop)
    (error error' : CompileError) : Prop :=
  error.cause = error'.cause ∧ located error.span error'.span

/- The first of two options is related as they both are. -/
theorem rel_or {α β : Type}
    {related : α → β → Prop}
    {first second : Option α}
    {first' second' : Option β}
    (hFirst : Option.Rel related first first')
    (hSecond : Option.Rel related second second') :
    Option.Rel related (first.or second) (first'.or second') := by
  cases hFirst with
  | some hRelated => exact .some hRelated
  | none => exact hSecond

variable {likeness : Likeness}
variable {e e' : Expr}
variable {es es' : List Expr}
variable {members members' : List Member}

------------------------------------------------------------
-- Chains
------------------------------------------------------------

namespace Likeness

/- Only an expression that is a chain matches the pattern of one. -/
theorem chain_or_leaf
    (hLike : likeness.like e e') :
    (∃ op left left' right right' note note',
      e = ⟨.logical op left right, note⟩ ∧
        e' = ⟨.logical op left' right', note'⟩ ∧
        likeness.like left left' ∧ likeness.like right right' ∧
        note.parenthesized = note'.parenthesized) ∨
      (∀ op left right note, e ≠ ⟨.logical op left right, note⟩) ∧
        ∀ op left right note, e' ≠ ⟨.logical op left right, note⟩ := by
  have hForm := likeness.form hLike
  have hGrouped := likeness.grouped hLike
  rcases e with ⟨form, note⟩
  rcases e' with ⟨form', note'⟩
  cases hForm with
  | logical op hLeft hRight =>
      exact .inl ⟨op, _, _, _, _, note, note', rfl, rfl, hLeft, hRight,
        hGrouped rfl⟩
  | _ => exact .inr ⟨by simp, by simp⟩

/- The induction is on the first of the two expressions. -/
theorem leavesAt
    (whole : Bool) :
    (e e' : Expr) → likeness.like e e' →
      List.Forall₂ likeness.like (Chain.leavesAt whole e)
        (Chain.leavesAt whole e')
  | ⟨form, note⟩, e', hLike => by
      rcases chain_or_leaf hLike with
        ⟨op, left, left', right, right', note, note', hChain, rfl, hLeft,
          hRight, hGrouped⟩ | ⟨hLeaf, hLeaf'⟩
      · cases hChain
        rw [Chain.leavesAt, Chain.leavesAt, hGrouped]
        split
        · exact .cons hLike .nil
        · exact List.rel_append (leavesAt false left left' hLeft)
            (leavesAt false right right' hRight)
      · rw [Chain.leavesAt, Chain.leavesAt]
        · exact .cons hLike .nil
        · exact hLeaf'
        · intro op left right other hForm
          exact hLeaf op left right other hForm
termination_by e => sizeOf e
decreasing_by
  all_goals
    subst_vars
    simp only [Expr.mk.sizeOf_spec, Form.logical.sizeOf_spec]; omega

theorem leaves
    (hLike : likeness.like e e') :
    List.Forall₂ likeness.like (Chain.leaves e) (Chain.leaves e') :=
  leavesAt true e e' hLike

theorem faultAt?
    (root : LogicalOp)
    (whole : Bool) :
    (e e' : Expr) → likeness.like e e' →
      Option.Rel (CompileError.Like likeness.located)
        (Chain.faultAt? root whole e) (Chain.faultAt? root whole e')
  | ⟨form, note⟩, e', hLike => by
      have hPlace := likeness.place hLike
      rcases chain_or_leaf hLike with
        ⟨op, left, left', right, right', note, note', hChain, rfl, hLeft,
          hRight, hGrouped⟩ | ⟨hLeaf, hLeaf'⟩
      · cases hChain
        rw [Chain.faultAt?, Chain.faultAt?, hGrouped]
        split
        · exact .none
        · cases Chain.operatorFault? root op with
          | some cause => exact .some ⟨rfl, hPlace⟩
          | none =>
              exact rel_or (faultAt? root false left left' hLeft)
                (faultAt? root false right right' hRight)
      · rw [Chain.faultAt?, Chain.faultAt?]
        · exact .none
        · exact hLeaf'
        · intro op left right other hForm
          exact hLeaf op left right other hForm
termination_by e => sizeOf e
decreasing_by
  all_goals
    subst_vars
    simp only [Expr.mk.sizeOf_spec, Form.logical.sizeOf_spec]; omega

theorem fault?
    (root : LogicalOp)
    (hLike : likeness.like e e') :
    Option.Rel (CompileError.Like likeness.located)
      (Chain.fault? root e) (Chain.fault? root e') :=
  faultAt? root true e e' hLike

theorem isCase
    (hLike : likeness.like e e') :
    Chain.isCase e = Chain.isCase e' := by
  have hForm := likeness.form hLike
  rcases e with ⟨form, note⟩
  rcases e' with ⟨form', note'⟩
  cases hForm with
  | binary op hLeft hRight => cases op <;> rfl
  | _ => rfl

theorem all_isCase
    (hAll : List.Forall₂ likeness.like es es') :
    es.all Chain.isCase = es'.all Chain.isCase := by
  induction hAll with
  | nil => rfl
  | cons hLike _ ih => rw [List.all_cons, List.all_cons, isCase hLike, ih]

end Likeness

------------------------------------------------------------
-- Enumerations
------------------------------------------------------------

namespace Chain

/- Two constants are listed alike. -/
def Constant.Like
    (constant constant' : Constant) : Prop :=
  constant.grouped? = constant'.grouped? ∧
    constant.isNull = constant'.isNull

/- Constants that are listed alike have the same enumeration. -/
theorem enumeration_eq
    {constants constants' : List Constant}
    (hLike : List.Forall₂ Constant.Like constants constants') :
    enumeration constants = enumeration constants' := by
  have hBoth :
      constants.filterMap Constant.grouped? =
          constants'.filterMap Constant.grouped? ∧
        constants.any Constant.isNull = constants'.any Constant.isNull := by
    induction hLike with
    | nil => exact ⟨rfl, rfl⟩
    | cons hFirst _ ih =>
        simp [List.filterMap_cons, hFirst.1, hFirst.2, ih.1, ih.2]
  unfold enumeration groups
  rw [hBoth.1, hBoth.2]

end Chain

namespace Likeness

theorem constant?
    (hLike : likeness.like e e') :
    Option.Rel Chain.Constant.Like (Chain.Constant.of? e)
      (Chain.Constant.of? e') := by
  have hForm := likeness.form hLike
  have hNumber := number_cases hLike
  rcases e with ⟨form, note⟩
  rcases e' with ⟨form', note'⟩
  have hNumbers :
      Option.Rel Chain.Constant.Like
        ((Expr.number? ⟨form, note⟩).map .number)
        ((Expr.number? ⟨form', note'⟩).map .number) := by
    rcases hNumber with
      ⟨hNone, hNone'⟩ | ⟨value, value', hSome, hSome', hValue⟩
    · rw [hNone, hNone']
      exact .none
    · rw [hSome, hSome']
      refine .some ⟨?_, rfl⟩
      simp [Chain.Constant.grouped?, hValue]
  cases hForm with
  | string value => exact .some ⟨rfl, rfl⟩
  | null => exact .some ⟨rfl, rfl⟩
  | _ => exact hNumbers

theorem constants?
    (hAll : List.Forall₂ likeness.like es es') :
    Option.Rel (List.Forall₂ Chain.Constant.Like) (Chain.constants? es)
      (Chain.constants? es') := by
  induction hAll with
  | nil => exact .some .nil
  | @cons leaf leaf' rest rest' hLike _ ih =>
      rw [Chain.constants?, Chain.constants?]
      have hFirst := constant? hLike
      generalize Chain.Constant.of? leaf = first at hFirst ⊢
      generalize Chain.Constant.of? leaf' = first' at hFirst ⊢
      generalize Chain.constants? rest = others at ih ⊢
      generalize Chain.constants? rest' = others' at ih ⊢
      cases hFirst with
      | none => exact .none
      | some hFirst =>
          cases ih with
          | none => exact .none
          | some hOthers => exact .some (.cons hFirst hOthers)

end Likeness

------------------------------------------------------------
-- Ranges
------------------------------------------------------------

namespace Limited

/- Two ranges have the same limits, and operands that are alike. -/
structure Like
    (like : Expr → Expr → Prop)
    (range range' : Limited) : Prop where
  operand : like range.operand range'.operand
  limits :
    List.Forall₂
      (fun limit limit' : String × Binary64 =>
        limit.1 = limit'.1 ∧
          Schema.ofBinary64 limit.2 = Schema.ofBinary64 limit'.2)
      range.limits range'.limits

theorem Like.apply
    {like : Expr → Expr → Prop}
    {view : View}
    {range range' : Limited}
    (hRange : Like like range range')
    {schema schema' : Schema}
    (hSame : view.Same schema schema') :
    view.Same (range.apply schema) (range'.apply schema') := by
  have hLimits := hRange.limits
  unfold Limited.apply
  generalize range.limits = limits at hLimits ⊢
  generalize range'.limits = limits' at hLimits ⊢
  induction hLimits generalizing schema schema' with
  | nil => exact hSame
  | cons hLimit _ ih =>
      rw [List.foldl_cons, List.foldl_cons, hLimit.1, hLimit.2]
      exact ih (hSame.setKey _ rfl)

end Limited

namespace Likeness

theorem between?
    (hLike : likeness.like e e') :
    Option.Rel (Limited.Like likeness.like) (Limited.between? e)
      (Limited.between? e') := by
  have hForm := likeness.form hLike
  rcases e with ⟨form, note⟩
  rcases e' with ⟨form', note'⟩
  cases hForm with
  | binary upper hLeft hMost =>
      rename_i left left' most most'
      have hInner := likeness.form hLeft
      rcases left with ⟨inner, middle⟩
      rcases left' with ⟨inner', middle'⟩
      cases hInner with
      | binary lower hLeast hOperand =>
          unfold Limited.between?
          dsimp only
          split
          · rcases number_cases hLeast with
              ⟨hNone, hNone'⟩ | ⟨low, low', hLow, hLow', hLower⟩
            · rw [hNone, hNone']
              exact .none
            · rcases number_cases hMost with
                ⟨hNone, hNone'⟩ | ⟨high, high', hHigh, hHigh', hUpper⟩
              · rw [hLow, hLow', hNone, hNone']
                exact .none
              · rw [hLow, hLow', hHigh, hHigh']
                exact .some ⟨hOperand,
                  .cons ⟨rfl, hLower⟩ (.cons ⟨rfl, hUpper⟩ .nil)⟩
          · exact .none
      | _ => exact .none
  | _ => exact .none

theorem bound?
    (hLike : likeness.like e e') :
    Option.Rel (Limited.Like likeness.like) (Limited.bound? e)
      (Limited.bound? e') := by
  have hForm := likeness.form hLike
  rcases e with ⟨form, note⟩
  rcases e' with ⟨form', note'⟩
  cases hForm with
  | binary op hOperand hLimit =>
      unfold Limited.bound?
      dsimp only
      split
      · rcases number_cases hLimit with
          ⟨hNone, hNone'⟩ | ⟨value, value', hSome, hSome', hValue⟩
        · rw [hNone, hNone']
          exact .none
        · rw [hSome, hSome']
          exact .some ⟨hOperand, .cons ⟨rfl, hValue⟩ .nil⟩
      · exact .none
  | _ => exact .none

theorem limited?
    (hLike : likeness.like e e') :
    Option.Rel (Limited.Like likeness.like) (Limited.of? e)
      (Limited.of? e') := by
  have hEither :
      ∀ e, Limited.of? e = (Limited.between? e).or (Limited.bound? e) := by
    intro e
    unfold Limited.of?
    cases Limited.between? e <;> rfl
  rw [hEither, hEither]
  exact rel_or (between? hLike) (bound? hLike)

------------------------------------------------------------
-- Arrays And Keys
------------------------------------------------------------

theorem arrayFault?
    (hAll : List.Forall₂ likeness.like es es')
    (exact : Bool) :
    Option.Rel (CompileError.Like likeness.located)
      (Compile.arrayFault? es exact) (Compile.arrayFault? es' exact) := by
  have hSpreads :
      List.Forall₂ likeness.like (es.filter Expr.isSpread)
        (es'.filter Expr.isSpread) :=
    List.rel_filter (fun _ _ hLike => by simp [isSpread hLike]) hAll
  unfold Compile.arrayFault?
  generalize es.filter Expr.isSpread = spreads at hSpreads ⊢
  generalize es'.filter Expr.isSpread = spreads' at hSpreads ⊢
  cases hSpreads with
  | nil => exact .none
  | cons hFirst hRest =>
      cases hRest with
      | nil =>
          cases exact with
          | true => exact .some ⟨rfl, likeness.place hFirst⟩
          | false => exact .none
      | cons hSecond _ =>
          cases exact with
          | true => exact .some ⟨rfl, likeness.place hFirst⟩
          | false => exact .some ⟨rfl, likeness.place hSecond⟩

theorem matches_literalKey
    {key key' : Key}
    {span span' : Span}
    (hKey : Key.Like likeness.like key key')
    (hSpan : likeness.located span span') :
    Matches likeness.located Eq (Compile.literalKey key span)
      (Compile.literalKey key' span') := by
  cases hKey with
  | word hWord hWord' =>
      rcases Key.word_cases hWord with rfl | rfl <;>
        rcases Key.word_cases hWord' with rfl | rfl <;> exact .ok rfl
  | number value => exact .error _ hSpan
  | regex pattern flags => exact .ok rfl
  | expression hLike =>
      rw [Compile.literalKey, Compile.literalKey, kindName hLike]
      exact .error _ (likeness.place hLike)

theorem any_isPattern
    (hAll :
      List.Forall₂ (Member.Like likeness.located likeness.like) members
        members') :
    members.any Member.isPattern = members'.any Member.isPattern := by
  induction hAll with
  | nil => rfl
  | cons hMember _ ih =>
      rw [List.any_cons, List.any_cons, ih]
      congr 1
      cases hMember with
      | spread hLike => rfl
      | property hKey computed hValue hSpan comments comments' =>
          cases hKey with
          | word hWord hWord' =>
              rcases Key.word_cases hWord with rfl | rfl <;>
                rcases Key.word_cases hWord' with rfl | rfl <;> rfl
          | _ => rfl

end Likeness

end SchemaLang
