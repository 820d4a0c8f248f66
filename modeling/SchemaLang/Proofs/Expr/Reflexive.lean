import SchemaLang.Proofs.Expr.Likeness
import SchemaLang.Proofs.Expr.Parts
import SchemaLang.Proofs.Schema.Requiring

/-
  When an expression is like itself, and when comments do the same. If
  descriptions are not seen, then nothing is seen of any comment. If
  all keys are seen, then the same comments do the same.

  Main declarations:
    * `Form.Like.refl`
    * `View.Describes.of_hidden` and `View.Describes.refl`
    * `Expr.places`
    * `Likeness.within`
-/

namespace SchemaLang

------------------------------------------------------------
-- One Layer
------------------------------------------------------------

/- The places of the members of an object literal. -/
def Form.spans : Form → List Span
  | .object members => members.map Member.span
  | _ => []

section

variable {located : Span → Span → Prop}
variable {like : Expr → Expr → Prop}

theorem Key.Like.refl
    (key : Key)
    (hLike : ∀ part ∈ key.parts, like part part) :
    Key.Like like key key := by
  cases key with
  | identifier name => exact .word rfl rfl
  | string value => exact .word rfl rfl
  | number value => exact .number value
  | regex pattern flags => exact .regex pattern flags
  | expression e => exact .expression (hLike e e.self_mem_parts)

theorem Member.Like.refl
    (member : Member)
    (hLike : ∀ part ∈ member.parts, like part part)
    (hLocated : located member.span member.span) :
    Member.Like located like member member := by
  cases member with
  | property key computed value span comments =>
      rw [Member.parts, List.forall_mem_append] at hLike
      exact .property (.refl key hLike.1) computed
        (hLike.2 value value.self_mem_parts) hLocated comments comments
  | spread e => exact .spread (hLike e e.self_mem_parts)

/- Expressions are alike one by one, if they are like themselves. -/
theorem forall₂_self
    {es : List Expr}
    (hLike : ∀ part ∈ Expr.partsOfAll es, like part part) :
    List.Forall₂ like es es := by
  rw [Expr.partsOfAll_eq] at hLike
  refine List.forall₂_same.mpr fun e hMember => hLike e ?_
  exact List.mem_flatMap_of_mem hMember e.self_mem_parts

/- A form is like itself, if what is within it is. -/
theorem Form.Like.refl
    (form : Form)
    (hLike : ∀ part ∈ form.parts, like part part)
    (hLocated : ∀ span ∈ form.spans, located span span) :
    Form.Like located like form form := by
  have hOwn :
      ∀ {e : Expr}, (∀ part ∈ e.parts, like part part) → like e e :=
    fun hParts => hParts _ (Expr.self_mem_parts _)
  cases form with
  | assignment op target value =>
      rw [Form.parts, List.forall_mem_append] at hLike
      exact .assignment op (hOwn hLike.1) (hOwn hLike.2)
  | binary op left right =>
      rw [Form.parts, List.forall_mem_append] at hLike
      exact .binary op (hOwn hLike.1) (hOwn hLike.2)
  | logical op left right =>
      rw [Form.parts, List.forall_mem_append] at hLike
      exact .logical op (hOwn hLike.1) (hOwn hLike.2)
  | unary op argument => exact .unary op (hOwn hLike)
  | identifier name => exact .identifier name
  | member object property computed =>
      rw [Form.parts, List.forall_mem_append] at hLike
      exact .member (hOwn hLike.1) (hOwn hLike.2) computed
  | object members =>
      rw [Form.parts, Member.partsOfAll_eq] at hLike
      refine .object (List.forall₂_same.mpr fun member hMember => ?_)
      refine .refl member (fun part hPart => ?_) ?_
      · exact hLike part (List.mem_flatMap_of_mem hMember hPart)
      · exact hLocated _ (List.mem_map_of_mem hMember)
  | array elements => exact .array (forall₂_self hLike)
  | number value => exact .number (.inl rfl)
  | string value => exact .string value
  | boolean value => exact .boolean value
  | null => exact .null
  | regex pattern flags => exact .regex pattern flags
  | call callee arguments =>
      rw [Form.parts, List.forall_mem_append] at hLike
      exact .call (hOwn hLike.1) (forall₂_self hLike.2)
  | arrow params body =>
      rw [Form.parts, List.forall_mem_append] at hLike
      exact .arrow (forall₂_self hLike.1) (hOwn hLike.2)
  | conditional test consequent alternate =>
      rw [Form.parts, List.forall_mem_append,
        List.forall_mem_append] at hLike
      exact .conditional (hOwn hLike.1) (hOwn hLike.2.1)
        (hOwn hLike.2.2)
  | spread argument => exact .spread (hOwn hLike)

end

------------------------------------------------------------
-- Comments
------------------------------------------------------------

namespace View

variable {view : View}
variable {fields fields' : Fields}

/- A value may be replaced by one that is seen alike. -/
theorem sameFields_insert_self
    {key : String}
    {value value' : Schema}
    (hGet : fields.get? key = some value)
    (hSame : view.Same value' value) :
    view.SameFields (fields.insert key value') fields := by
  unfold SameFields
  rw [Schema.seenFields_insert]
  split
  · rename_i hShown
    rw [OrderedMap.insert_eq_self_iff,
      Schema.get?_seenFields fields hShown, hGet, hSame]
    rfl
  · rfl

/- If descriptions are not seen, nothing is seen of a new one. -/
theorem sameFields_describeProperty
    (hHidden : view.descriptions = false)
    (fields : Fields)
    (name : String)
    (comments : List Comment) :
    view.SameFields (Fields.describeProperty fields name comments)
      fields := by
  unfold Fields.describeProperty
  split
  · rfl
  · rename_i properties hProperties
    split
    · rfl
    · rename_i value hGet
      rcases Option.bind_eq_some_iff.mp hProperties with
        ⟨schema, hMap, hFields⟩
      cases schema with
      | object entries =>
          cases hFields
          apply sameFields_insert_self hMap
          apply same_object
          exact sameFields_insert_self hGet
            (same_describe hHidden comments value)
      | _ => cases hFields

theorem SameFields.describeProperty
    (hComplete : view.IsComplete)
    (hFields : view.SameFields fields fields')
    (name : String)
    (comments : List Comment) :
    view.SameFields (Fields.describeProperty fields name comments)
      (Fields.describeProperty fields' name comments) := by
  unfold Fields.describeProperty
  rcases hFields.properties_cases with
    ⟨hFirst, hSecond⟩ | ⟨properties, properties', hFirst, hSecond, hSame⟩
  · rw [hFirst, hSecond]
    exact hFields
  · rw [hFirst, hSecond]
    have hValue := rel_of_map_seen (hSame.get?_of_complete hComplete name)
    dsimp only
    generalize OrderedMap.get? properties name = value at hValue ⊢
    generalize OrderedMap.get? properties' name = value' at hValue ⊢
    cases hValue with
    | none => exact hFields
    | some hValue =>
        exact hFields.insert "properties"
          (same_object (hSame.insert name (hValue.describe comments)))

/- If descriptions are not seen, comments do nothing. -/
theorem Describes.of_hidden
    (hHidden : view.descriptions = false)
    (previous previous' : Option Member)
    (comments comments' : Comments) :
    view.Describes previous previous' comments comments' := by
  have hNothing :
      ∀ fields value comments previous,
        view.SameFields
            (Member.describe fields value comments previous).1 fields ∧
          view.Same (Member.describe fields value comments previous).2
            value := by
    intro fields value comments previous
    have hDescribe := same_describe hHidden
    unfold Member.describe
    split
    · exact ⟨rfl, hDescribe _ value⟩
    · split
      · exact ⟨rfl, hDescribe _ value⟩
      · rename_i first others _ _ name _
        cases name with
        | none =>
            dsimp only
            split
            · exact ⟨rfl, hDescribe _ value⟩
            · exact ⟨rfl, hDescribe _ value⟩
        | some name =>
            have hProperty :=
              sameFields_describeProperty hHidden fields name [first]
            dsimp only
            split
            · exact ⟨hProperty, hDescribe _ value⟩
            · exact ⟨hProperty, hDescribe _ value⟩
  intro fields fields' value value' hFields hValue
  have hFirst := hNothing fields value comments previous
  have hSecond := hNothing fields' value' comments' previous'
  exact ⟨hFirst.1.trans (hFields.trans hSecond.1.symm),
    hFirst.2.trans (hValue.trans hSecond.2.symm)⟩

/- If all keys are seen, the same comments do the same. -/
theorem Describes.refl
    (hComplete : view.IsComplete)
    (previous : Option Member)
    (comments : Comments) :
    view.Describes previous previous comments comments := by
  intro fields fields' value value' hFields hValue
  unfold Member.describe
  split
  · exact ⟨hFields, hValue.describe _⟩
  · split
    · exact ⟨hFields, hValue.describe _⟩
    · rename_i first others _ _ name _
      cases name with
      | none =>
          dsimp only
          split
          · exact ⟨hFields, hValue.describe _⟩
          · exact ⟨hFields, hValue.describe _⟩
      | some name =>
          have hProperty :=
            hFields.describeProperty hComplete name [first]
          dsimp only
          split
          · exact ⟨hProperty, hValue.describe _⟩
          · exact ⟨hProperty, hValue.describe _⟩

/- Without comments, the member in front does not matter. -/
theorem Describes.of_empty
    (previous previous' : Option Member) :
    view.Describes previous previous' {} {} := by
  intro fields fields' value value' hFields hValue
  exact ⟨hFields, hValue.describe []⟩

theorem DescribesAll.of_hidden
    (hHidden : view.descriptions = false)
    (previous previous' : Option Member)
    (members members' : List Member) :
    view.DescribesAll previous previous' members members' := by
  induction members generalizing previous previous' members' with
  | nil => trivial
  | cons member rest ih =>
      cases members' with
      | nil => trivial
      | cons member' rest' =>
          exact ⟨.of_hidden hHidden _ _ _ _, ih _ _ _⟩

theorem DescribesAll.refl
    (hComplete : view.IsComplete)
    (previous : Option Member)
    (members : List Member) :
    view.DescribesAll previous previous members members := by
  induction members generalizing previous with
  | nil => trivial
  | cons member rest ih => exact ⟨.refl hComplete _ _, ih _⟩

theorem DescribesAll.of_empty
    (previous previous' : Option Member)
    {members members' : List Member}
    (hEmpty : ∀ member ∈ members, member.comments = {})
    (hEmpty' : ∀ member ∈ members', member.comments = {}) :
    view.DescribesAll previous previous' members members' := by
  induction members generalizing previous previous' members' with
  | nil => trivial
  | cons member rest ih =>
      cases members' with
      | nil => trivial
      | cons member' rest' =>
          rw [List.forall_mem_cons] at hEmpty hEmpty'
          refine ⟨?_, ih _ _ hEmpty.2 hEmpty'.2⟩
          rw [hEmpty.1, hEmpty'.1]
          exact .of_empty _ _

end View

------------------------------------------------------------
-- Places
------------------------------------------------------------

/- The places of all parts of an expression, and of all members. -/
def Expr.places
    (e : Expr) : List Span :=
  e.parts.flatMap fun part => part.span :: part.form.spans

namespace Expr

theorem span_mem_places
    (e : Expr) :
    e.span ∈ e.places :=
  List.mem_flatMap.mpr ⟨e, e.self_mem_parts, List.mem_cons_self⟩

theorem mem_places_of_mem_spans
    {e : Expr}
    {span : Span}
    (hSpan : span ∈ e.form.spans) :
    span ∈ e.places :=
  List.mem_flatMap.mpr
    ⟨e, e.self_mem_parts, List.mem_cons_of_mem _ hSpan⟩

/- The places of what is within an expression are places of it. -/
theorem places_subset
    {part e : Expr}
    (hPart : part ∈ e.form.parts) :
    part.places ⊆ e.places := by
  intro span hSpan
  rcases List.mem_flatMap.mp hSpan with ⟨inner, hInner, hHere⟩
  refine List.mem_flatMap.mpr ⟨inner, ?_, hHere⟩
  rcases e with ⟨form, note⟩
  exact List.mem_cons_of_mem _ (Form.mem_parts_trans hInner hPart)

end Expr

------------------------------------------------------------
-- Expressions Within Places
------------------------------------------------------------

/-
  An expression is like itself, if all of its places are good ones.
  Errors are located alike if they are located at a good place.
-/
def Likeness.within
    (good : Span → Prop) : Likeness where
  view := {}
  located := fun span span' => span' = span ∧ good span
  like := fun e e' => e' = e ∧ ∀ span ∈ e.places, good span
  fair := View.isComplete_whole.isFair
  removals := fun hLocated => hLocated.1.symm
  form := by
    rintro _ e ⟨rfl, hGood⟩
    refine .refl e.form (fun part hPart => ⟨rfl, ?_⟩) ?_
    · exact fun span hSpan => hGood span (Expr.places_subset hPart hSpan)
    · exact fun span hSpan =>
        ⟨rfl, hGood span (Expr.mem_places_of_mem_spans hSpan)⟩
  place := by
    rintro _ e ⟨rfl, hGood⟩
    exact ⟨rfl, hGood e.span e.span_mem_places⟩
  described := by
    rintro _ e ⟨rfl, -⟩ schema schema' hSame
    exact hSame.describe _
  grouped := by
    rintro _ e ⟨rfl, -⟩ -
    rfl
  members := by
    rintro members members' note note' ⟨hSame, -⟩
    cases hSame
    exact .refl View.isComplete_whole none members

end SchemaLang
