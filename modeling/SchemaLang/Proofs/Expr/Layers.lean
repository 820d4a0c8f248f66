import Mathlib.Data.List.Forall2
import SchemaLang.Proofs.Expr.Likeness
import SchemaLang.Proofs.Expr.Parts

/-
  The parts of forms that are alike. If what is within two forms has
  parts that are related one by one, then so have the forms; and if
  the forms have such parts, then so has what is within them.

  Main declarations:
    * `Form.Like.forall₂_parts`
    * `Refines` and `Refines.form`
-/

namespace SchemaLang

variable {located : Span → Span → Prop}
variable {like like' related : Expr → Expr → Prop}

------------------------------------------------------------
-- From Within To The Whole
------------------------------------------------------------

theorem Key.Like.forall₂_parts
    {key key' : Key}
    (hKey : Key.Like like key key')
    (hWithin :
      ∀ e ∈ key.parts, ∀ e', like e e' →
        List.Forall₂ related e.parts e'.parts) :
    List.Forall₂ related key.parts key'.parts := by
  cases hKey with
  | word hWord hWord' =>
      rcases Key.word_cases hWord with rfl | rfl <;>
        rcases Key.word_cases hWord' with rfl | rfl <;> exact .nil
  | number value => exact .nil
  | regex pattern flags => exact .nil
  | expression hLike => exact hWithin _ (Expr.self_mem_parts _) _ hLike

theorem Expr.forall₂_partsOfAll
    {es es' : List Expr}
    (hAll : List.Forall₂ like es es')
    (hWithin :
      ∀ e ∈ Expr.partsOfAll es, ∀ e', like e e' →
        List.Forall₂ related e.parts e'.parts) :
    List.Forall₂ related (Expr.partsOfAll es) (Expr.partsOfAll es') := by
  induction hAll with
  | nil => exact .nil
  | cons hLike _ ih =>
      rw [Expr.partsOfAll, List.forall_mem_append] at hWithin
      exact List.rel_append
        (hWithin.1 _ (Expr.self_mem_parts _) _ hLike) (ih hWithin.2)

theorem Member.forall₂_partsOfAll
    {members members' : List Member}
    (hAll : List.Forall₂ (Member.Like located like) members members')
    (hWithin :
      ∀ e ∈ Member.partsOfAll members, ∀ e', like e e' →
        List.Forall₂ related e.parts e'.parts) :
    List.Forall₂ related (Member.partsOfAll members)
      (Member.partsOfAll members') := by
  induction hAll with
  | nil => exact .nil
  | cons hMember _ ih =>
      rw [Member.partsOfAll, List.forall_mem_append] at hWithin
      refine List.rel_append ?_ (ih hWithin.2)
      cases hMember with
      | property hKey computed hValue hSpan comments comments' =>
          rw [Member.parts, List.forall_mem_append] at hWithin
          exact List.rel_append (hKey.forall₂_parts hWithin.1.1)
            (hWithin.1.2 _ (Expr.self_mem_parts _) _ hValue)
      | spread hLike =>
          exact hWithin.1 _ (Expr.self_mem_parts _) _ hLike

theorem Form.Like.forall₂_parts
    {form form' : Form}
    (hForm : Form.Like located like form form')
    (hWithin :
      ∀ e ∈ form.parts, ∀ e', like e e' →
        List.Forall₂ related e.parts e'.parts) :
    List.Forall₂ related form.parts form'.parts := by
  have hOwn :
      ∀ {e e' : Expr}, like e e' →
        (∀ part ∈ e.parts, ∀ part', like part part' →
          List.Forall₂ related part.parts part'.parts) →
        List.Forall₂ related e.parts e'.parts :=
    fun hLike hParts => hParts _ (Expr.self_mem_parts _) _ hLike
  cases hForm with
  | assignment op hTarget hValue =>
      rw [Form.parts, List.forall_mem_append] at hWithin
      exact List.rel_append (hOwn hTarget hWithin.1)
        (hOwn hValue hWithin.2)
  | binary op hLeft hRight =>
      rw [Form.parts, List.forall_mem_append] at hWithin
      exact List.rel_append (hOwn hLeft hWithin.1) (hOwn hRight hWithin.2)
  | logical op hLeft hRight =>
      rw [Form.parts, List.forall_mem_append] at hWithin
      exact List.rel_append (hOwn hLeft hWithin.1) (hOwn hRight hWithin.2)
  | unary op hArgument => exact hOwn hArgument hWithin
  | member hObject hProperty computed =>
      rw [Form.parts, List.forall_mem_append] at hWithin
      exact List.rel_append (hOwn hObject hWithin.1)
        (hOwn hProperty hWithin.2)
  | object hMembers => exact Member.forall₂_partsOfAll hMembers hWithin
  | array hElements => exact Expr.forall₂_partsOfAll hElements hWithin
  | call hCallee hArguments =>
      rw [Form.parts, List.forall_mem_append] at hWithin
      exact List.rel_append (hOwn hCallee hWithin.1)
        (Expr.forall₂_partsOfAll hArguments hWithin.2)
  | arrow hParams hBody =>
      rw [Form.parts, List.forall_mem_append] at hWithin
      exact List.rel_append
        (Expr.forall₂_partsOfAll hParams hWithin.1)
        (hOwn hBody hWithin.2)
  | conditional hTest hConsequent hAlternate =>
      rw [Form.parts, List.forall_mem_append,
        List.forall_mem_append] at hWithin
      exact List.rel_append (hOwn hTest hWithin.1)
        (List.rel_append (hOwn hConsequent hWithin.2.1)
          (hOwn hAlternate hWithin.2.2))
  | spread hArgument => exact hOwn hArgument hWithin
  | _ => exact .nil

------------------------------------------------------------
-- From The Whole To What Is Within
------------------------------------------------------------

/- Lists that are related one by one are so up to any point. -/
theorem forall₂_of_append
    {first first' second second' : List Expr}
    (hBoth :
      List.Forall₂ related (first ++ second) (first' ++ second'))
    (hLength : first.length = first'.length) :
    List.Forall₂ related first first' ∧
      List.Forall₂ related second second' := by
  have hTake := List.forall₂_take_append _ _ _ hBoth
  have hDrop := List.forall₂_drop_append _ _ _ hBoth
  rw [← hLength] at hTake hDrop
  rw [List.take_left] at hTake
  rw [List.drop_left] at hDrop
  exact ⟨hTake, hDrop⟩

/-
  Expressions that are alike have as many parts, and are alike in
  another sense if their parts are related.
-/
structure Refines
    (like like' related : Expr → Expr → Prop) : Prop where
  length :
    ∀ {e e'}, like e e' → e.parts.length = e'.parts.length
  like :
    ∀ {e e'}, like e e' → List.Forall₂ related e.parts e'.parts →
      like' e e'

variable (hRefines : Refines like like' related)

include hRefines

theorem Refines.all
    {es es' : List Expr}
    (hAll : List.Forall₂ like es es')
    (hParts :
      List.Forall₂ related (Expr.partsOfAll es) (Expr.partsOfAll es')) :
    List.Forall₂ like' es es' := by
  induction hAll with
  | nil => exact .nil
  | cons hLike _ ih =>
      rcases forall₂_of_append hParts (hRefines.length hLike) with
        ⟨hFirst, hRest⟩
      exact .cons (hRefines.like hLike hFirst) (ih hRest)

theorem Refines.key
    {key key' : Key}
    (hKey : Key.Like like key key')
    (hParts : List.Forall₂ related key.parts key'.parts) :
    Key.Like like' key key' := by
  cases hKey with
  | word hWord hWord' => exact .word hWord hWord'
  | number value => exact .number value
  | regex pattern flags => exact .regex pattern flags
  | expression hLike => exact .expression (hRefines.like hLike hParts)

/- Keys that are alike have as many parts. -/
theorem Refines.length_key
    {key key' : Key}
    (hKey : Key.Like like key key') :
    key.parts.length = key'.parts.length := by
  cases hKey with
  | word hWord hWord' =>
      rcases Key.word_cases hWord with rfl | rfl <;>
        rcases Key.word_cases hWord' with rfl | rfl <;> rfl
  | number value => rfl
  | regex pattern flags => rfl
  | expression hLike => exact hRefines.length hLike

theorem Refines.members
    {members members' : List Member}
    (hAll : List.Forall₂ (Member.Like located like) members members')
    (hParts :
      List.Forall₂ related (Member.partsOfAll members)
        (Member.partsOfAll members')) :
    List.Forall₂ (Member.Like located like') members members' := by
  induction hAll with
  | nil => exact .nil
  | cons hMember _ ih =>
      rw [Member.partsOfAll, Member.partsOfAll] at hParts
      cases hMember with
      | property hKey computed hValue hSpan comments comments' =>
          have hLength := hRefines.length_key hKey
          rw [Member.parts, Member.parts, List.append_assoc,
            List.append_assoc] at hParts
          rcases forall₂_of_append hParts hLength with
            ⟨hFirst, hOthers⟩
          rcases forall₂_of_append hOthers (hRefines.length hValue) with
            ⟨hSecond, hRest⟩
          exact .cons (.property (hRefines.key hKey hFirst) computed
            (hRefines.like hValue hSecond) hSpan comments comments')
            (ih hRest)
      | spread hLike =>
          rcases forall₂_of_append hParts (hRefines.length hLike) with
            ⟨hFirst, hRest⟩
          exact .cons (.spread (hRefines.like hLike hFirst)) (ih hRest)

/- What is within forms is alike in the other sense, too. -/
theorem Refines.form
    {form form' : Form}
    (hForm : Form.Like located like form form')
    (hParts : List.Forall₂ related form.parts form'.parts) :
    Form.Like located like' form form' := by
  have hTwo :
      ∀ {first first' second second' : Expr},
        like first first' → like second second' →
          List.Forall₂ related (first.parts ++ second.parts)
            (first'.parts ++ second'.parts) →
          like' first first' ∧ like' second second' := by
    intro first first' second second' hFirst hSecond hBoth
    rcases forall₂_of_append hBoth (hRefines.length hFirst) with
      ⟨hLeft, hRight⟩
    exact ⟨hRefines.like hFirst hLeft, hRefines.like hSecond hRight⟩
  cases hForm with
  | assignment op hTarget hValue =>
      have hBoth := hTwo hTarget hValue hParts
      exact .assignment op hBoth.1 hBoth.2
  | binary op hLeft hRight =>
      have hBoth := hTwo hLeft hRight hParts
      exact .binary op hBoth.1 hBoth.2
  | logical op hLeft hRight =>
      have hBoth := hTwo hLeft hRight hParts
      exact .logical op hBoth.1 hBoth.2
  | unary op hArgument => exact .unary op (hRefines.like hArgument hParts)
  | identifier name => exact .identifier name
  | member hObject hProperty computed =>
      have hBoth := hTwo hObject hProperty hParts
      exact .member hBoth.1 hBoth.2 computed
  | object hMembers => exact .object (hRefines.members hMembers hParts)
  | array hElements => exact .array (hRefines.all hElements hParts)
  | number hValue => exact .number hValue
  | string value => exact .string value
  | boolean value => exact .boolean value
  | null => exact .null
  | regex pattern flags => exact .regex pattern flags
  | call hCallee hArguments =>
      rcases forall₂_of_append hParts (hRefines.length hCallee) with
        ⟨hFirst, hRest⟩
      exact .call (hRefines.like hCallee hFirst)
        (hRefines.all hArguments hRest)
  | arrow hParams hBody =>
      have hLength :
          ∀ {es es' : List Expr}, List.Forall₂ like es es' →
            (Expr.partsOfAll es).length =
              (Expr.partsOfAll es').length := by
        intro es es' hAll
        induction hAll with
        | nil => rfl
        | cons hLike _ ih =>
            rw [Expr.partsOfAll, Expr.partsOfAll, List.length_append,
              List.length_append, hRefines.length hLike, ih]
      rcases forall₂_of_append hParts (hLength hParams) with
        ⟨hFirst, hRest⟩
      exact .arrow (hRefines.all hParams hFirst)
        (hRefines.like hBody hRest)
  | conditional hTest hConsequent hAlternate =>
      rcases forall₂_of_append hParts (hRefines.length hTest) with
        ⟨hFirst, hRest⟩
      have hBoth := hTwo hConsequent hAlternate hRest
      exact .conditional (hRefines.like hTest hFirst) hBoth.1 hBoth.2
  | spread hArgument => exact .spread (hRefines.like hArgument hParts)

end SchemaLang
