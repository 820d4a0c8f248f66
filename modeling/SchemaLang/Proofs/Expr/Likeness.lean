import SchemaLang.Compile.Member
import SchemaLang.Expr.Reference
import SchemaLang.Proofs.Error
import SchemaLang.Proofs.Schema.View

/-
  Expressions that are alike: they have the same form, what is within
  them is alike again, and they may differ only in how they are
  written. What a likeness says of two expressions, it says of one
  layer of them, and it may be any relation for which this is true.

  Main declarations:
    * `Form.Like`, `Member.Like` and `Key.Like`
    * `Likeness`
    * `Likeness.matches_referenceName`
    * `Likeness.map_number?`
-/

namespace SchemaLang

------------------------------------------------------------
-- Numbers
------------------------------------------------------------

namespace Binary64

/- Two numbers are the same, or are equal as numbers. -/
def Alike
    (x y : Binary64) : Prop :=
  x = y ∨ x.same y = true

theorem alike_cases
    {x y : Binary64}
    (hAlike : x.Alike y) :
    x = y ∨ x.isZero = true ∧ y.isZero = true := by
  rcases hAlike with hSame | hEqual
  · exact .inl hSame
  · unfold same at hEqual
    simp only [Bool.and_eq_true, Bool.or_eq_true, beq_iff_eq] at hEqual
    exact hEqual.2

theorem Alike.negate
    {x y : Binary64}
    (hAlike : x.Alike y) :
    x.negate.Alike y.negate := by
  rcases hAlike with hSame | hEqual
  · exact .inl (congrArg Binary64.negate hSame)
  · refine .inr ?_
    unfold same at hEqual ⊢
    simp only [Bool.and_eq_true, Bool.or_eq_true, beq_iff_eq] at hEqual ⊢
    refine ⟨hEqual.1, hEqual.2.imp_left fun hSame => ?_⟩
    rw [hSame]

theorem isFinite_of_isZero
    {x : Binary64}
    (hZero : x.isZero = true) :
    x.isFinite = true := by
  simp only [isZero, Bool.and_eq_true, beq_iff_eq] at hZero
  simp [isFinite, hZero.1]

theorem integer?_of_isZero
    {x : Binary64}
    (hZero : x.isZero = true) :
    x.integer? = some 0 := by
  have hFinite := isFinite_of_isZero hZero
  simp only [isZero, Bool.and_eq_true, beq_iff_eq] at hZero
  have hSignificand : x.significand = 0 := by
    simp [significand, hZero.1, hZero.2]
  simp [integer?, hFinite, hSignificand]

theorem Alike.isFinite
    {x y : Binary64}
    (hAlike : x.Alike y) :
    x.isFinite = y.isFinite := by
  rcases alike_cases hAlike with rfl | ⟨hZero, hZero'⟩
  · rfl
  · rw [isFinite_of_isZero hZero, isFinite_of_isZero hZero']

/- Both zeros are written as the same number. -/
theorem Alike.ofBinary64
    {x y : Binary64}
    (hAlike : x.Alike y) :
    Schema.ofBinary64 x = Schema.ofBinary64 y := by
  rcases alike_cases hAlike with rfl | ⟨hZero, hZero'⟩
  · rfl
  · unfold Schema.ofBinary64 Numeral.ofBinary64?
    rw [integer?_of_isZero hZero, integer?_of_isZero hZero']
    rfl

end Binary64

------------------------------------------------------------
-- One Layer
------------------------------------------------------------

/- The name, if a key is an identifier or a string. -/
def Key.word? : Key → Option String
  | identifier name => some name
  | string value => some value
  | _ => none

theorem Key.word_cases
    {key : Key}
    {name : String}
    (hWord : key.word? = some name) :
    key = .identifier name ∨ key = .string name := by
  cases key with
  | identifier other => exact .inl (congrArg _ (Option.some.inj hWord))
  | string other => exact .inr (congrArg _ (Option.some.inj hWord))
  | _ => cases hWord

section

variable (located : Span → Span → Prop)
variable (like : Expr → Expr → Prop)

/- Identifiers and strings may stand for one another. -/
inductive Key.Like : Key → Key → Prop
  | word
      {key key' : Key}
      {name : String}
      (hWord : key.word? = some name)
      (hWord' : key'.word? = some name) :
      Like key key'
  | number
      (value : Binary64) :
      Like (.number value) (.number value)
  | regex
      (pattern flags : String) :
      Like (.regex pattern flags) (.regex pattern flags)
  | expression
      {e e' : Expr}
      (hLike : like e e') :
      Like (.expression e) (.expression e')

/- Comments may differ; what they do is asked of the whole object. -/
inductive Member.Like : Member → Member → Prop
  | property
      {key key' : Key}
      (hKey : Key.Like like key key')
      (computed : Bool)
      {value value' : Expr}
      (hValue : like value value')
      {span span' : Span}
      (hSpan : located span span')
      (comments comments' : Comments) :
      Like (.property key computed value span comments)
        (.property key' computed value' span' comments')
  | spread
      {e e' : Expr}
      (hLike : like e e') :
      Like (.spread e) (.spread e')

/- Two forms are the same up to what is within them. -/
inductive Form.Like : Form → Form → Prop
  | assignment
      (op : AssignOp)
      {target target' value value' : Expr}
      (hTarget : like target target')
      (hValue : like value value') :
      Like (.assignment op target value) (.assignment op target' value')
  | binary
      (op : BinaryOp)
      {left left' right right' : Expr}
      (hLeft : like left left')
      (hRight : like right right') :
      Like (.binary op left right) (.binary op left' right')
  | logical
      (op : LogicalOp)
      {left left' right right' : Expr}
      (hLeft : like left left')
      (hRight : like right right') :
      Like (.logical op left right) (.logical op left' right')
  | unary
      (op : UnaryOp)
      {argument argument' : Expr}
      (hArgument : like argument argument') :
      Like (.unary op argument) (.unary op argument')
  | identifier
      (name : String) :
      Like (.identifier name) (.identifier name)
  | member
      {object object' property property' : Expr}
      (hObject : like object object')
      (hProperty : like property property')
      (computed : Bool) :
      Like (.member object property computed)
        (.member object' property' computed)
  | object
      {members members' : List Member}
      (hMembers :
        List.Forall₂ (Member.Like located like) members members') :
      Like (.object members) (.object members')
  | array
      {elements elements' : List Expr}
      (hElements : List.Forall₂ like elements elements') :
      Like (.array elements) (.array elements')
  | number
      {value value' : Binary64}
      (hValue : value.Alike value') :
      Like (.number value) (.number value')
  | string
      (value : String) :
      Like (.string value) (.string value)
  | boolean
      (value : Bool) :
      Like (.boolean value) (.boolean value)
  | null : Like .null .null
  | regex
      (pattern flags : String) :
      Like (.regex pattern flags) (.regex pattern flags)
  | call
      {callee callee' : Expr}
      (hCallee : like callee callee')
      {arguments arguments' : List Expr}
      (hArguments : List.Forall₂ like arguments arguments') :
      Like (.call callee arguments) (.call callee' arguments')
  | arrow
      {params params' : List Expr}
      (hParams : List.Forall₂ like params params')
      {body body' : Expr}
      (hBody : like body body') :
      Like (.arrow params body) (.arrow params' body')
  | conditional
      {test test' consequent consequent' alternate alternate' : Expr}
      (hTest : like test test')
      (hConsequent : like consequent consequent')
      (hAlternate : like alternate alternate') :
      Like (.conditional test consequent alternate)
        (.conditional test' consequent' alternate')
  | spread
      {argument argument' : Expr}
      (hArgument : like argument argument') :
      Like (.spread argument) (.spread argument')

end

------------------------------------------------------------
-- Comments Of Members
------------------------------------------------------------

namespace View

/-
  The comments of two members, each with the member in front of it,
  do the same to schemas as far as it is seen.
-/
def Describes
    (view : View)
    (previous previous' : Option Member)
    (comments comments' : Comments) : Prop :=
  ∀ fields fields' value value',
    view.SameFields fields fields' → view.Same value value' →
      view.SameFields
          (Member.describe fields value comments previous).1
          (Member.describe fields' value' comments' previous').1 ∧
        view.Same (Member.describe fields value comments previous).2
          (Member.describe fields' value' comments' previous').2

/- So do the comments of the members of two objects. -/
def DescribesAll
    (view : View)
    (previous previous' : Option Member) :
    List Member → List Member → Prop
  | member :: rest, member' :: rest' =>
    view.Describes previous previous' member.comments member'.comments ∧
      DescribesAll view (some member) (some member') rest rest'
  | _, _ => True

end View

------------------------------------------------------------
-- Likenesses
------------------------------------------------------------

/- Whether an expression is a chain. -/
def Expr.isChain : Expr → Bool
  | ⟨.logical _ _ _, _⟩ => true
  | _ => false

/-
  A relation of expressions that are alike, layer by layer. Their
  places are related, and removals there are seen alike; comments do
  the same as far as it is seen; and chains are in parentheses alike.
-/
structure Likeness where
  view : View
  located : Span → Span → Prop
  like : Expr → Expr → Prop
  fair : view.IsFair
  removals :
    ∀ {span span'}, located span span' → view.place span = view.place span'
  form :
    ∀ {e e'}, like e e' → Form.Like located like e.form e'.form
  place :
    ∀ {e e'}, like e e' → located e.span e'.span
  described :
    ∀ {e e'}, like e e' → ∀ {schema schema'},
      view.Same schema schema' →
        view.Same (schema.describe e.comments.preferred)
          (schema'.describe e'.comments.preferred)
  grouped :
    ∀ {e e'}, like e e' → e.isChain = true →
      e.note.parenthesized = e'.note.parenthesized
  members :
    ∀ {members members' note note'},
      like ⟨.object members, note⟩ ⟨.object members', note'⟩ →
        view.DescribesAll none none members members'

namespace Likeness

variable {likeness : Likeness}
variable {e e' : Expr}

------------------------------------------------------------
-- What Is Read Off An Expression
------------------------------------------------------------

theorem kindName
    (hLike : likeness.like e e') :
    e.kindName = e'.kindName := by
  have hForm := likeness.form hLike
  rcases e with ⟨form, note⟩
  rcases e' with ⟨form', note'⟩
  cases hForm <;> rfl

theorem identifier?
    (hLike : likeness.like e e') :
    e.identifier? = e'.identifier? := by
  have hForm := likeness.form hLike
  rcases e with ⟨form, note⟩
  rcases e' with ⟨form', note'⟩
  cases hForm <;> rfl

theorem string?
    (hLike : likeness.like e e') :
    e.string? = e'.string? := by
  have hForm := likeness.form hLike
  rcases e with ⟨form, note⟩
  rcases e' with ⟨form', note'⟩
  cases hForm <;> rfl

theorem boolean?
    (hLike : likeness.like e e') :
    e.boolean? = e'.boolean? := by
  have hForm := likeness.form hLike
  rcases e with ⟨form, note⟩
  rcases e' with ⟨form', note'⟩
  cases hForm <;> rfl

theorem isSpread
    (hLike : likeness.like e e') :
    e.isSpread = e'.isSpread := by
  have hForm := likeness.form hLike
  rcases e with ⟨form, note⟩
  rcases e' with ⟨form', note'⟩
  cases hForm <;> rfl

theorem isUndefined
    (hLike : likeness.like e e') :
    e.isUndefined = e'.isUndefined := by
  unfold Expr.isUndefined
  rw [identifier? hLike]

/- Number literals are written as the same number. -/
theorem map_number?
    (hLike : likeness.like e e') :
    e.number?.map Schema.ofBinary64 = e'.number?.map Schema.ofBinary64 := by
  have hForm := likeness.form hLike
  rcases e with ⟨form, note⟩
  rcases e' with ⟨form', note'⟩
  cases hForm with
  | number hValue =>
      simp only [Expr.number?, hValue.isFinite]
      split
      · exact congrArg some hValue.ofBinary64
      · rfl
  | unary op hArgument =>
      rename_i argument argument'
      have hInner := likeness.form hArgument
      rcases argument with ⟨inner, middle⟩
      rcases argument' with ⟨inner', middle'⟩
      cases op with
      | neg =>
          cases hInner with
          | number hValue =>
              simp only [Expr.number?, hValue.isFinite]
              split
              · exact congrArg some hValue.negate.ofBinary64
              · rfl
          | _ => rfl
      | _ => rfl
  | _ => rfl

/- Either both expressions are numbers, or none is. -/
theorem number_cases
    (hLike : likeness.like e e') :
    (e.number? = none ∧ e'.number? = none) ∨
      ∃ value value',
        e.number? = some value ∧ e'.number? = some value' ∧
          Schema.ofBinary64 value = Schema.ofBinary64 value' := by
  have hSame := map_number? hLike
  cases hFirst : e.number? with
  | none =>
      rw [hFirst] at hSame
      exact .inl ⟨rfl, Option.map_eq_none_iff.mp hSame.symm⟩
  | some value =>
      rw [hFirst] at hSame
      rcases Option.map_eq_some_iff.mp hSame.symm with
        ⟨value', hSecond, hValue⟩
      exact .inr ⟨value, value', rfl, hSecond, hValue.symm⟩

------------------------------------------------------------
-- Names
------------------------------------------------------------

theorem matches_partName
    (hLike : likeness.like e e')
    (computed : Bool) :
    Matches likeness.located Eq (e.partName computed)
      (e'.partName computed) := by
  have hForm := likeness.form hLike
  have hPlace := likeness.place hLike
  rcases e with ⟨form, note⟩
  rcases e' with ⟨form', note'⟩
  cases hForm with
  | identifier name =>
      cases computed with
      | false => exact .ok rfl
      | true => exact .error _ hPlace
  | string value =>
      cases computed with
      | false => exact .error _ hPlace
      | true => exact .ok rfl
  | _ => exact .error _ hPlace

/- The induction is on the first of the two expressions. -/
theorem matches_dashedName :
    (e e' : Expr) → likeness.like e e' →
      Matches likeness.located Eq e.dashedName e'.dashedName
  | ⟨form, note⟩, ⟨form', note'⟩, hLike => by
      have hForm := likeness.form hLike
      have hPlace := likeness.place hLike
      cases hForm with
      | identifier name => exact .ok rfl
      | binary op hLeft hRight =>
          rename_i left left' right right'
          rw [Expr.dashedName, Expr.dashedName]
          split
          · refine (matches_dashedName left left' hLeft).bind ?_
            rintro first _ rfl
            refine (matches_dashedName right right' hRight).bind ?_
            rintro second _ rfl
            exact .ok rfl
          · exact .error _ hPlace
      | _ => exact .error _ hPlace
termination_by e => sizeOf e
decreasing_by
  all_goals
    subst_vars
    simp only [Expr.mk.sizeOf_spec, Form.binary.sizeOf_spec]; omega

theorem matches_referenceName :
    (e e' : Expr) → likeness.like e e' →
      Matches likeness.located Eq e.referenceName e'.referenceName
  | ⟨form, note⟩, ⟨form', note'⟩, hLike => by
      have hForm := likeness.form hLike
      have hPlace := likeness.place hLike
      cases hForm with
      | null => exact .ok rfl
      | identifier name => exact .ok rfl
      | member hObject hProperty computed =>
          rename_i object object' property property'
          rw [Expr.referenceName, Expr.referenceName]
          refine (matches_referenceName object object' hObject).bind ?_
          rintro owner _ rfl
          refine (matches_partName hProperty computed).bind ?_
          rintro part _ rfl
          exact .ok rfl
      | binary op hLeft hRight =>
          rw [Expr.referenceName, Expr.referenceName]
          exact matches_dashedName _ _ hLike
      | _ => exact .error _ hPlace
termination_by e => sizeOf e
decreasing_by
  all_goals
    subst_vars
    simp only [Expr.mk.sizeOf_spec, Form.member.sizeOf_spec]; omega

------------------------------------------------------------
-- Keys
------------------------------------------------------------

variable {key key' : Key}
variable {span span' : Span}

theorem name?_eq
    (hKey : Key.Like likeness.like key key') :
    key.name? = key'.name? := by
  cases hKey with
  | word hWord hWord' =>
      rcases Key.word_cases hWord with rfl | rfl <;>
        rcases Key.word_cases hWord' with rfl | rfl <;> rfl
  | _ => rfl

theorem matches_propertyName
    (hKey : Key.Like likeness.like key key')
    (hSpan : likeness.located span span') :
    Matches likeness.located Eq (key.propertyName span)
      (key'.propertyName span') := by
  cases hKey with
  | word hWord hWord' =>
      rcases Key.word_cases hWord with rfl | rfl <;>
        rcases Key.word_cases hWord' with rfl | rfl <;> exact .ok rfl
  | number value => exact .error _ hSpan
  | regex pattern flags => exact .ok rfl
  | expression hLike =>
      rw [Key.propertyName, Key.propertyName, kindName hLike]
      exact .error _ (likeness.place hLike)

end Likeness

end SchemaLang
