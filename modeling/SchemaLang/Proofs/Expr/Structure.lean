import SchemaLang.Expr.Agreement
import SchemaLang.Proofs.Expr.Parts
import SchemaLang.Proofs.Expr.Likeness

/-
  Having the same structure is an equivalence of expressions. The
  essence of an expression is what is left of it if places, comments
  and parentheses are dropped, the two zeros are taken for one, and
  each key that denotes a name is replaced by that name. Two
  expressions have the same structure if and only if they have the
  same essence and hold no literal that is not a number.

  Main declarations:
    * `Expr.essence`
    * `Expr.sameStructure_iff`
    * `Expr.sameStructure_equivalence`
-/

namespace SchemaLang

------------------------------------------------------------
-- Numbers
------------------------------------------------------------

namespace Binary64

/- The value, where both zeros are the positive one. -/
def unsigned
    (x : Binary64) : Binary64 :=
  if x.isZero then zero false else x

theorem same_iff
    {x y : Binary64} :
    x.same y = true ↔
      x.unsigned = y.unsigned ∧ x.isUndefined = false ∧
        y.isUndefined = false := by
  have hZero : (zero false).isZero = true := rfl
  unfold same unsigned
  simp only [Bool.and_eq_true, Bool.or_eq_true, Bool.not_eq_true',
    beq_iff_eq]
  constructor
  · rintro ⟨⟨hDefined, hDefined'⟩, rfl | ⟨hFirst, hSecond⟩⟩
    · exact ⟨rfl, hDefined, hDefined'⟩
    · rw [if_pos hFirst, if_pos hSecond]
      exact ⟨rfl, hDefined, hDefined'⟩
  · rintro ⟨hSame, hDefined, hDefined'⟩
    refine ⟨⟨hDefined, hDefined'⟩, ?_⟩
    split at hSame
    · rename_i hFirst
      split at hSame
      · rename_i hSecond
        exact .inr ⟨hFirst, hSecond⟩
      · rename_i hSecond
        rw [← hSame] at hSecond
        exact absurd hZero hSecond
    · rename_i hFirst
      split at hSame
      · rw [hSame] at hFirst
        exact absurd hZero hFirst
      · exact .inl hSame

end Binary64

------------------------------------------------------------
-- Essences
------------------------------------------------------------

mutual

/- What matters of an expression. -/
def Expr.essence : Expr → Expr
  | ⟨form, _⟩ => ⟨form.essence, {}⟩

/- What matters of a form. -/
def Form.essence : Form → Form
  | .assignment op target value =>
    .assignment op target.essence value.essence
  | .binary op left right => .binary op left.essence right.essence
  | .logical op left right => .logical op left.essence right.essence
  | .unary op argument => .unary op argument.essence
  | .identifier name => .identifier name
  | .member object property computed =>
    .member object.essence property.essence computed
  | .object members => .object (Member.essences members)
  | .array elements => .array (Expr.essences elements)
  | .number value => .number value.unsigned
  | .string value => .string value
  | .boolean value => .boolean value
  | .null => .null
  | .regex pattern flags => .regex pattern flags
  | .call callee arguments =>
    .call callee.essence (Expr.essences arguments)
  | .arrow params body => .arrow (Expr.essences params) body.essence
  | .conditional test consequent alternate =>
    .conditional test.essence consequent.essence alternate.essence
  | .spread argument => .spread argument.essence

/- What matters of some expressions. -/
def Expr.essences : List Expr → List Expr
  | [] => []
  | e :: rest => e.essence :: Expr.essences rest

/- What matters of some members. -/
def Member.essences : List Member → List Member
  | [] => []
  | member :: rest => member.essence :: Member.essences rest

/- What matters of a member. -/
def Member.essence : Member → Member
  | .property key computed value _ _ =>
    .property key.essence computed value.essence {} {}
  | .spread e => .spread e.essence

/- What matters of a key; three kinds of keys denote names. -/
def Key.essence : Key → Key
  | .identifier name => .identifier name
  | .string value => .identifier value
  | .number value => .identifier (Layout.keyText value)
  | .regex pattern flags => .regex pattern flags
  | .expression e => .expression e.essence

end

------------------------------------------------------------
-- Literals
------------------------------------------------------------

/- A form is no literal that is not a number. -/
def Form.IsDefined
    (form : Form) : Prop :=
  ∀ value, form = .number value → value.isUndefined = false

/- No literal among the parts is not a number. -/
def Defined
    (parts : List Expr) : Prop :=
  ∀ part ∈ parts, part.form.IsDefined

/- Two things are the same, and all parts of them are defined. -/
structure Likewise {α : Type}
    (x y : α)
    (parts parts' : List Expr) : Prop where
  same : x = y
  defined : Defined parts
  defined' : Defined parts'

namespace Likewise

variable {α β γ : Type}
variable {x y : α}
variable {z w : β}
variable {first first' second second' : List Expr}

theorem map
    (f : α → β)
    (hLikewise : Likewise x y first first') :
    Likewise (f x) (f y) first first' :=
  ⟨congrArg f hLikewise.same, hLikewise.defined, hLikewise.defined'⟩

theorem append
    (f : α → β → γ)
    (hFirst : Likewise x y first first')
    (hSecond : Likewise z w second second') :
    Likewise (f x z) (f y w) (first ++ second) (first' ++ second') :=
  ⟨congrArg₂ f hFirst.same hSecond.same,
    List.forall_mem_append.mpr ⟨hFirst.defined, hSecond.defined⟩,
    List.forall_mem_append.mpr ⟨hFirst.defined', hSecond.defined'⟩⟩

theorem of_eq
    (hSame : x = y) :
    Likewise x y [] [] :=
  ⟨hSame, by simp [Defined], by simp [Defined]⟩

/- The first parts and the second parts are taken apart. -/
theorem split
    {δ : Type}
    {u v : δ}
    (hLikewise : Likewise u v (first ++ second) (first' ++ second'))
    (hFirst : x = y)
    (hSecond : z = w) :
    Likewise x y first first' ∧ Likewise z w second second' := by
  have hDefined := List.forall_mem_append.mp hLikewise.defined
  have hDefined' := List.forall_mem_append.mp hLikewise.defined'
  exact ⟨⟨hFirst, hDefined.1, hDefined'.1⟩,
    ⟨hSecond, hDefined.2, hDefined'.2⟩⟩

end Likewise

------------------------------------------------------------
-- From Agreement To Essences
------------------------------------------------------------

/- Forms of different kinds do not agree. -/
theorem Form.ctorIdx_of_agree
    {exact : Bool}
    {form form' : Form}
    (hAgree : Form.agree exact form form' = true) :
    form.ctorIdx = form'.ctorIdx := by
  fun_cases Form.agree exact form form' with
  | case18 => simp_all [Form.agree]
  | _ => rfl

/- Number literals agree only if they are numbers. -/
theorem Form.isDefined_of_agree
    {exact : Bool}
    {form form' : Form}
    (hAgree : Form.agree exact form form' = true) :
    form.IsDefined ∧ form'.IsDefined := by
  constructor
  · rintro value rfl
    cases form' with
    | number value' =>
        rw [Form.agree, Binary64.same_iff] at hAgree
        exact hAgree.2.1
    | _ => cases Form.ctorIdx_of_agree hAgree
  · rintro value' rfl
    cases form with
    | number value =>
        rw [Form.agree, Binary64.same_iff] at hAgree
        exact hAgree.2.2
    | _ => cases Form.ctorIdx_of_agree hAgree

/- Equal numbers have one text, as keys. -/
theorem Binary64.keyText_eq_of_same
    {x y : Binary64}
    (hSame : x.same y = true) :
    Layout.keyText x = Layout.keyText y := by
  rcases alike_cases (.inr hSame) with rfl | ⟨hZero, hZero'⟩
  · rfl
  · unfold Layout.keyText
    rw [integer?_of_isZero hZero, integer?_of_isZero hZero']
    rfl

/- Keys agree only if they denote the same name, or none. -/
theorem Key.name?_eq_of_agree
    {exact : Bool}
    {key key' : Key}
    (hAgree : Key.agree exact key key' = true) :
    key.name? = key'.name? := by
  cases key with
  | identifier name => cases key' <;> simp_all [Key.agree, Key.name?]
  | string value => cases key' <;> simp_all [Key.agree, Key.name?]
  | number value =>
      cases key' with
      | number value' =>
          cases exact with
          | true =>
              rw [Key.agree, if_pos rfl] at hAgree
              exact congrArg some (Binary64.keyText_eq_of_same hAgree)
          | false => simp_all [Key.agree, Key.name?]
      | _ => simp_all [Key.agree, Key.name?]
  | regex pattern flags => cases key' <;> simp_all [Key.agree, Key.name?]
  | expression e => cases key' <;> simp_all [Key.agree, Key.name?]

mutual

theorem Expr.likewise_of_agree
    {exact : Bool} :
    (e e' : Expr) → Expr.agree exact e e' = true →
      Likewise e.essence e'.essence e.parts e'.parts
  | ⟨form, note⟩, ⟨form', note'⟩, hAgree => by
      rw [Expr.agree, Bool.and_eq_true] at hAgree
      have hForm := Form.likewise_of_agree form form' hAgree.2
      have hDefined := Form.isDefined_of_agree hAgree.2
      exact ⟨congrArg (Expr.mk · {}) hForm.same,
        List.forall_mem_cons.mpr ⟨hDefined.1, hForm.defined⟩,
        List.forall_mem_cons.mpr ⟨hDefined.2, hForm.defined'⟩⟩
termination_by structural e => e

theorem Form.likewise_of_agree
    {exact : Bool} :
    (form form' : Form) → Form.agree exact form form' = true →
      Likewise form.essence form'.essence form.parts form'.parts
  | .assignment op target value, form', hAgree => by
      cases form' with
      | assignment op' target' value' =>
          simp only [Form.agree, Bool.and_eq_true, beq_iff_eq] at hAgree
          rcases hAgree with ⟨⟨rfl, hTarget⟩, hValue⟩
          exact .append (Form.assignment op)
            (Expr.likewise_of_agree target target' hTarget)
            (Expr.likewise_of_agree value value' hValue)
      | _ => cases Form.ctorIdx_of_agree hAgree
  | .binary op left right, form', hAgree => by
      cases form' with
      | binary op' left' right' =>
          simp only [Form.agree, Bool.and_eq_true, beq_iff_eq] at hAgree
          rcases hAgree with ⟨⟨rfl, hLeft⟩, hRight⟩
          exact .append (Form.binary op)
            (Expr.likewise_of_agree left left' hLeft)
            (Expr.likewise_of_agree right right' hRight)
      | _ => cases Form.ctorIdx_of_agree hAgree
  | .logical op left right, form', hAgree => by
      cases form' with
      | logical op' left' right' =>
          simp only [Form.agree, Bool.and_eq_true, beq_iff_eq] at hAgree
          rcases hAgree with ⟨⟨rfl, hLeft⟩, hRight⟩
          exact .append (Form.logical op)
            (Expr.likewise_of_agree left left' hLeft)
            (Expr.likewise_of_agree right right' hRight)
      | _ => cases Form.ctorIdx_of_agree hAgree
  | .unary op argument, form', hAgree => by
      cases form' with
      | unary op' argument' =>
          simp only [Form.agree, Bool.and_eq_true, beq_iff_eq] at hAgree
          rcases hAgree with ⟨rfl, hArgument⟩
          exact .map (Form.unary op)
            (Expr.likewise_of_agree argument argument' hArgument)
      | _ => cases Form.ctorIdx_of_agree hAgree
  | .identifier name, form', hAgree => by
      cases form' with
      | identifier name' =>
          rw [Form.agree, beq_iff_eq] at hAgree
          exact .of_eq (congrArg Form.identifier hAgree)
      | _ => cases Form.ctorIdx_of_agree hAgree
  | .member object property computed, form', hAgree => by
      cases form' with
      | member object' property' computed' =>
          simp only [Form.agree, Bool.and_eq_true, beq_iff_eq] at hAgree
          rcases hAgree with ⟨⟨rfl, hObject⟩, hProperty⟩
          exact .append (Form.member · · computed)
            (Expr.likewise_of_agree object object' hObject)
            (Expr.likewise_of_agree property property' hProperty)
      | _ => cases Form.ctorIdx_of_agree hAgree
  | .object members, form', hAgree => by
      cases form' with
      | object members' =>
          rw [Form.agree] at hAgree
          exact .map Form.object
            (Member.likewise_of_agreeAll members members' hAgree)
      | _ => cases Form.ctorIdx_of_agree hAgree
  | .array elements, form', hAgree => by
      cases form' with
      | array elements' =>
          rw [Form.agree] at hAgree
          exact .map Form.array
            (Expr.likewise_of_agreeAll elements elements' hAgree)
      | _ => cases Form.ctorIdx_of_agree hAgree
  | .number value, form', hAgree => by
      cases form' with
      | number value' =>
          rw [Form.agree, Binary64.same_iff] at hAgree
          exact .of_eq (congrArg Form.number hAgree.1)
      | _ => cases Form.ctorIdx_of_agree hAgree
  | .string value, form', hAgree => by
      cases form' with
      | string value' =>
          rw [Form.agree, beq_iff_eq] at hAgree
          exact .of_eq (congrArg Form.string hAgree)
      | _ => cases Form.ctorIdx_of_agree hAgree
  | .boolean value, form', hAgree => by
      cases form' with
      | boolean value' =>
          rw [Form.agree, beq_iff_eq] at hAgree
          exact .of_eq (congrArg Form.boolean hAgree)
      | _ => cases Form.ctorIdx_of_agree hAgree
  | .null, form', hAgree => by
      cases form' with
      | null => exact .of_eq rfl
      | _ => cases Form.ctorIdx_of_agree hAgree
  | .regex pattern flags, form', hAgree => by
      cases form' with
      | regex pattern' flags' =>
          rw [Form.agree, Bool.and_eq_true, beq_iff_eq, beq_iff_eq]
            at hAgree
          exact .of_eq (congrArg₂ Form.regex hAgree.1 hAgree.2)
      | _ => cases Form.ctorIdx_of_agree hAgree
  | .call callee arguments, form', hAgree => by
      cases form' with
      | call callee' arguments' =>
          rw [Form.agree, Bool.and_eq_true] at hAgree
          exact .append Form.call
            (Expr.likewise_of_agree callee callee' hAgree.1)
            (Expr.likewise_of_agreeAll arguments arguments' hAgree.2)
      | _ => cases Form.ctorIdx_of_agree hAgree
  | .arrow params body, form', hAgree => by
      cases form' with
      | arrow params' body' =>
          rw [Form.agree, Bool.and_eq_true] at hAgree
          exact .append Form.arrow
            (Expr.likewise_of_agreeAll params params' hAgree.1)
            (Expr.likewise_of_agree body body' hAgree.2)
      | _ => cases Form.ctorIdx_of_agree hAgree
  | .conditional test consequent alternate, form', hAgree => by
      cases form' with
      | conditional test' consequent' alternate' =>
          simp only [Form.agree, Bool.and_eq_true] at hAgree
          rcases hAgree with ⟨⟨hTest, hConsequent⟩, hAlternate⟩
          have hLater :=
            Likewise.append Prod.mk
              (Expr.likewise_of_agree consequent consequent' hConsequent)
              (Expr.likewise_of_agree alternate alternate' hAlternate)
          exact .append
            (fun first (later : Expr × Expr) =>
              Form.conditional first later.1 later.2)
            (Expr.likewise_of_agree test test' hTest) hLater
      | _ => cases Form.ctorIdx_of_agree hAgree
  | .spread argument, form', hAgree => by
      cases form' with
      | spread argument' =>
          rw [Form.agree] at hAgree
          exact .map Form.spread
            (Expr.likewise_of_agree argument argument' hAgree)
      | _ => cases Form.ctorIdx_of_agree hAgree
termination_by structural form => form

theorem Expr.likewise_of_agreeAll
    {exact : Bool} :
    (es es' : List Expr) → Expr.agreeAll exact es es' = true →
      Likewise (Expr.essences es) (Expr.essences es')
        (Expr.partsOfAll es) (Expr.partsOfAll es')
  | [], [], _ => .of_eq rfl
  | [], _ :: _, hAgree => by simp [Expr.agreeAll] at hAgree
  | _ :: _, [], hAgree => by simp [Expr.agreeAll] at hAgree
  | e :: rest, e' :: rest', hAgree => by
      rw [Expr.agreeAll, Bool.and_eq_true] at hAgree
      exact .append List.cons (Expr.likewise_of_agree e e' hAgree.1)
        (Expr.likewise_of_agreeAll rest rest' hAgree.2)
termination_by structural es => es

theorem Member.likewise_of_agreeAll
    {exact : Bool} :
    (members members' : List Member) →
      Member.agreeAll exact members members' = true →
        Likewise (Member.essences members) (Member.essences members')
          (Member.partsOfAll members) (Member.partsOfAll members')
  | [], [], _ => .of_eq rfl
  | [], _ :: _, hAgree => by simp [Member.agreeAll] at hAgree
  | _ :: _, [], hAgree => by simp [Member.agreeAll] at hAgree
  | member :: rest, member' :: rest', hAgree => by
      rw [Member.agreeAll, Bool.and_eq_true] at hAgree
      exact .append List.cons
        (Member.likewise_of_agree member member' hAgree.1)
        (Member.likewise_of_agreeAll rest rest' hAgree.2)
termination_by structural members => members

theorem Member.likewise_of_agree
    {exact : Bool} :
    (member member' : Member) →
      Member.agree exact member member' = true →
        Likewise member.essence member'.essence member.parts
          member'.parts
  | .property key computed value span comments, member', hAgree => by
      cases member' with
      | property key' computed' value' span' comments' =>
          simp only [Member.agree, Bool.and_eq_true, beq_iff_eq] at hAgree
          rcases hAgree with ⟨⟨⟨rfl, hKey⟩, hValue⟩, -⟩
          exact .append (Member.property · computed · {} {})
            (Key.likewise_of_agree key key' hKey)
            (Expr.likewise_of_agree value value' hValue)
      | spread e' => simp [Member.agree] at hAgree
  | .spread e, member', hAgree => by
      cases member' with
      | property key' computed' value' span' comments' =>
          simp [Member.agree] at hAgree
      | spread e' =>
          rw [Member.agree] at hAgree
          exact .map Member.spread (Expr.likewise_of_agree e e' hAgree)
termination_by structural member => member

theorem Key.likewise_of_agree
    {exact : Bool} :
    (key key' : Key) → Key.agree exact key key' = true →
      Likewise key.essence key'.essence key.parts key'.parts
  | .expression e, key', hAgree => by
      cases key' with
      | expression e' =>
          rw [Key.agree] at hAgree
          exact .map Key.expression (Expr.likewise_of_agree e e' hAgree)
      | _ => simp [Key.agree] at hAgree
  | .regex pattern flags, key', hAgree => by
      cases key' with
      | regex pattern' flags' =>
          rw [Key.agree, Bool.and_eq_true, beq_iff_eq, beq_iff_eq]
            at hAgree
          exact .of_eq (congrArg₂ Key.regex hAgree.1 hAgree.2)
      | _ => simp [Key.agree] at hAgree
  | .identifier name, key', hAgree => by
      have hName := Key.name?_eq_of_agree hAgree
      cases key' with
      | regex pattern' flags' => simp [Key.agree] at hAgree
      | expression e' => simp [Key.agree] at hAgree
      | _ => exact .of_eq (congrArg Key.identifier (Option.some.inj hName))
  | .string value, key', hAgree => by
      have hName := Key.name?_eq_of_agree hAgree
      cases key' with
      | regex pattern' flags' => simp [Key.agree] at hAgree
      | expression e' => simp [Key.agree] at hAgree
      | _ => exact .of_eq (congrArg Key.identifier (Option.some.inj hName))
  | .number value, key', hAgree => by
      have hName := Key.name?_eq_of_agree hAgree
      cases key' with
      | regex pattern' flags' => simp [Key.agree] at hAgree
      | expression e' => simp [Key.agree] at hAgree
      | _ => exact .of_eq (congrArg Key.identifier (Option.some.inj hName))
termination_by structural key => key

end

------------------------------------------------------------
-- From Essences To Agreement
------------------------------------------------------------

theorem Form.ctorIdx_essence
    (form : Form) :
    form.essence.ctorIdx = form.ctorIdx := by
  cases form <;> rfl

/- Forms of different kinds have different essences. -/
theorem Form.ctorIdx_of_essence
    {form form' : Form}
    (hSame : form.essence = form'.essence) :
    form.ctorIdx = form'.ctorIdx := by
  rw [← Form.ctorIdx_essence form, hSame, Form.ctorIdx_essence form']

mutual

theorem Expr.agree_of_likewise :
    (e e' : Expr) → Likewise e.essence e'.essence e.parts e'.parts →
      Expr.agree false e e' = true
  | ⟨form, note⟩, ⟨form', note'⟩, hLikewise => by
      have hSame := hLikewise.same
      simp only [Expr.essence, Expr.mk.injEq, and_true] at hSame
      have hDefined := List.forall_mem_cons.mp hLikewise.defined
      have hDefined' := List.forall_mem_cons.mp hLikewise.defined'
      rw [Expr.agree, Bool.not_false, Bool.true_or, Bool.true_and]
      exact Form.agree_of_likewise form form' hDefined.1 hDefined'.1
        ⟨hSame, hDefined.2, hDefined'.2⟩
termination_by structural e => e

theorem Form.agree_of_likewise :
    (form form' : Form) → form.IsDefined → form'.IsDefined →
      Likewise form.essence form'.essence form.parts form'.parts →
        Form.agree false form form' = true
  | .assignment op target value, form', _, _, hLikewise => by
      have hSame := hLikewise.same
      cases form' with
      | assignment op' target' value' =>
          simp only [Form.essence, Form.assignment.injEq] at hSame
          rcases hSame with ⟨rfl, hTarget, hValue⟩
          have hParts := hLikewise.split hTarget hValue
          simp [Form.agree, Expr.agree_of_likewise _ _ hParts.1,
            Expr.agree_of_likewise _ _ hParts.2]
      | _ => cases Form.ctorIdx_of_essence hSame
  | .binary op left right, form', _, _, hLikewise => by
      have hSame := hLikewise.same
      cases form' with
      | binary op' left' right' =>
          simp only [Form.essence, Form.binary.injEq] at hSame
          rcases hSame with ⟨rfl, hLeft, hRight⟩
          have hParts := hLikewise.split hLeft hRight
          simp [Form.agree, Expr.agree_of_likewise _ _ hParts.1,
            Expr.agree_of_likewise _ _ hParts.2]
      | _ => cases Form.ctorIdx_of_essence hSame
  | .logical op left right, form', _, _, hLikewise => by
      have hSame := hLikewise.same
      cases form' with
      | logical op' left' right' =>
          simp only [Form.essence, Form.logical.injEq] at hSame
          rcases hSame with ⟨rfl, hLeft, hRight⟩
          have hParts := hLikewise.split hLeft hRight
          simp [Form.agree, Expr.agree_of_likewise _ _ hParts.1,
            Expr.agree_of_likewise _ _ hParts.2]
      | _ => cases Form.ctorIdx_of_essence hSame
  | .unary op argument, form', _, _, hLikewise => by
      have hSame := hLikewise.same
      cases form' with
      | unary op' argument' =>
          simp only [Form.essence, Form.unary.injEq] at hSame
          rcases hSame with ⟨rfl, hArgument⟩
          simp [Form.agree, Expr.agree_of_likewise argument argument'
            ⟨hArgument, hLikewise.defined, hLikewise.defined'⟩]
      | _ => cases Form.ctorIdx_of_essence hSame
  | .identifier name, form', _, _, hLikewise => by
      have hSame := hLikewise.same
      cases form' with
      | identifier name' => simpa [Form.essence, Form.agree] using hSame
      | _ => cases Form.ctorIdx_of_essence hSame
  | .member object property computed, form', _, _, hLikewise => by
      have hSame := hLikewise.same
      cases form' with
      | member object' property' computed' =>
          simp only [Form.essence, Form.member.injEq] at hSame
          rcases hSame with ⟨hObject, hProperty, rfl⟩
          have hParts := hLikewise.split hObject hProperty
          simp [Form.agree, Expr.agree_of_likewise _ _ hParts.1,
            Expr.agree_of_likewise _ _ hParts.2]
      | _ => cases Form.ctorIdx_of_essence hSame
  | .object members, form', _, _, hLikewise => by
      have hSame := hLikewise.same
      cases form' with
      | object members' =>
          simp only [Form.essence, Form.object.injEq] at hSame
          rw [Form.agree]
          exact Member.agreeAll_of_likewise members members'
            ⟨hSame, hLikewise.defined, hLikewise.defined'⟩
      | _ => cases Form.ctorIdx_of_essence hSame
  | .array elements, form', _, _, hLikewise => by
      have hSame := hLikewise.same
      cases form' with
      | array elements' =>
          simp only [Form.essence, Form.array.injEq] at hSame
          rw [Form.agree]
          exact Expr.agreeAll_of_likewise elements elements'
            ⟨hSame, hLikewise.defined, hLikewise.defined'⟩
      | _ => cases Form.ctorIdx_of_essence hSame
  | .number value, form', hDefined, hDefined', hLikewise => by
      have hSame := hLikewise.same
      cases form' with
      | number value' =>
          simp only [Form.essence, Form.number.injEq] at hSame
          rw [Form.agree, Binary64.same_iff]
          exact ⟨hSame, hDefined value rfl, hDefined' value' rfl⟩
      | _ => cases Form.ctorIdx_of_essence hSame
  | .string value, form', _, _, hLikewise => by
      have hSame := hLikewise.same
      cases form' with
      | string value' => simpa [Form.essence, Form.agree] using hSame
      | _ => cases Form.ctorIdx_of_essence hSame
  | .boolean value, form', _, _, hLikewise => by
      have hSame := hLikewise.same
      cases form' with
      | boolean value' => simpa [Form.essence, Form.agree] using hSame
      | _ => cases Form.ctorIdx_of_essence hSame
  | .null, form', _, _, hLikewise => by
      have hSame := hLikewise.same
      cases form' with
      | null => rw [Form.agree]
      | _ => cases Form.ctorIdx_of_essence hSame
  | .regex pattern flags, form', _, _, hLikewise => by
      have hSame := hLikewise.same
      cases form' with
      | regex pattern' flags' =>
          simpa [Form.essence, Form.agree] using hSame
      | _ => cases Form.ctorIdx_of_essence hSame
  | .call callee arguments, form', _, _, hLikewise => by
      have hSame := hLikewise.same
      cases form' with
      | call callee' arguments' =>
          simp only [Form.essence, Form.call.injEq] at hSame
          have hParts := hLikewise.split hSame.1 hSame.2
          rw [Form.agree, Bool.and_eq_true]
          exact ⟨Expr.agree_of_likewise _ _ hParts.1,
            Expr.agreeAll_of_likewise _ _ hParts.2⟩
      | _ => cases Form.ctorIdx_of_essence hSame
  | .arrow params body, form', _, _, hLikewise => by
      have hSame := hLikewise.same
      cases form' with
      | arrow params' body' =>
          simp only [Form.essence, Form.arrow.injEq] at hSame
          have hParts := hLikewise.split hSame.1 hSame.2
          rw [Form.agree, Bool.and_eq_true]
          exact ⟨Expr.agreeAll_of_likewise _ _ hParts.1,
            Expr.agree_of_likewise _ _ hParts.2⟩
      | _ => cases Form.ctorIdx_of_essence hSame
  | .conditional test consequent alternate, form', _, _, hLikewise => by
      have hSame := hLikewise.same
      cases form' with
      | conditional test' consequent' alternate' =>
          simp only [Form.essence, Form.conditional.injEq] at hSame
          rcases hSame with ⟨hTest, hConsequent, hAlternate⟩
          have hParts :=
            hLikewise.split hTest
              (congrArg₂ Prod.mk hConsequent hAlternate)
          have hLater := hParts.2.split hConsequent hAlternate
          simp [Form.agree, Expr.agree_of_likewise _ _ hParts.1,
            Expr.agree_of_likewise _ _ hLater.1,
            Expr.agree_of_likewise _ _ hLater.2]
      | _ => cases Form.ctorIdx_of_essence hSame
  | .spread argument, form', _, _, hLikewise => by
      have hSame := hLikewise.same
      cases form' with
      | spread argument' =>
          simp only [Form.essence, Form.spread.injEq] at hSame
          rw [Form.agree]
          exact Expr.agree_of_likewise argument argument'
            ⟨hSame, hLikewise.defined, hLikewise.defined'⟩
      | _ => cases Form.ctorIdx_of_essence hSame
termination_by structural form => form

theorem Expr.agreeAll_of_likewise :
    (es es' : List Expr) →
      Likewise (Expr.essences es) (Expr.essences es')
          (Expr.partsOfAll es) (Expr.partsOfAll es') →
        Expr.agreeAll false es es' = true
  | [], [], _ => by rw [Expr.agreeAll]
  | [], _ :: _, hLikewise => by
      have hSame := hLikewise.same
      simp [Expr.essences] at hSame
  | _ :: _, [], hLikewise => by
      have hSame := hLikewise.same
      simp [Expr.essences] at hSame
  | e :: rest, e' :: rest', hLikewise => by
      have hSame := hLikewise.same
      simp only [Expr.essences, List.cons.injEq] at hSame
      have hParts := hLikewise.split hSame.1 hSame.2
      rw [Expr.agreeAll, Bool.and_eq_true]
      exact ⟨Expr.agree_of_likewise e e' hParts.1,
        Expr.agreeAll_of_likewise rest rest' hParts.2⟩
termination_by structural es => es

theorem Member.agreeAll_of_likewise :
    (members members' : List Member) →
      Likewise (Member.essences members) (Member.essences members')
          (Member.partsOfAll members) (Member.partsOfAll members') →
        Member.agreeAll false members members' = true
  | [], [], _ => by rw [Member.agreeAll]
  | [], _ :: _, hLikewise => by
      have hSame := hLikewise.same
      simp [Member.essences] at hSame
  | _ :: _, [], hLikewise => by
      have hSame := hLikewise.same
      simp [Member.essences] at hSame
  | member :: rest, member' :: rest', hLikewise => by
      have hSame := hLikewise.same
      simp only [Member.essences, List.cons.injEq] at hSame
      have hParts := hLikewise.split hSame.1 hSame.2
      rw [Member.agreeAll, Bool.and_eq_true]
      exact ⟨Member.agree_of_likewise member member' hParts.1,
        Member.agreeAll_of_likewise rest rest' hParts.2⟩
termination_by structural members => members

theorem Member.agree_of_likewise :
    (member member' : Member) →
      Likewise member.essence member'.essence member.parts
          member'.parts →
        Member.agree false member member' = true
  | .property key computed value span comments, member', hLikewise => by
      have hSame := hLikewise.same
      cases member' with
      | property key' computed' value' span' comments' =>
          simp only [Member.essence, Member.property.injEq, and_true]
            at hSame
          rcases hSame with ⟨hKey, rfl, hValue⟩
          have hParts := hLikewise.split hKey hValue
          simp [Member.agree, Key.agree_of_likewise key key' hParts.1,
            Expr.agree_of_likewise value value' hParts.2]
      | spread e' => simp [Member.essence] at hSame
  | .spread e, member', hLikewise => by
      have hSame := hLikewise.same
      cases member' with
      | property key' computed' value' span' comments' =>
          simp [Member.essence] at hSame
      | spread e' =>
          simp only [Member.essence, Member.spread.injEq] at hSame
          rw [Member.agree]
          exact Expr.agree_of_likewise e e'
            ⟨hSame, hLikewise.defined, hLikewise.defined'⟩
termination_by structural member => member

theorem Key.agree_of_likewise :
    (key key' : Key) →
      Likewise key.essence key'.essence key.parts key'.parts →
        Key.agree false key key' = true
  | .identifier name, key', hLikewise => by
      have hSame := hLikewise.same
      cases key' <;> simp_all [Key.essence, Key.agree, Key.name?]
  | .string value, key', hLikewise => by
      have hSame := hLikewise.same
      cases key' <;> simp_all [Key.essence, Key.agree, Key.name?]
  | .number value, key', hLikewise => by
      have hSame := hLikewise.same
      cases key' <;> simp_all [Key.essence, Key.agree, Key.name?]
  | .regex pattern flags, key', hLikewise => by
      have hSame := hLikewise.same
      cases key' <;> simp_all [Key.essence, Key.agree]
  | .expression e, key', hLikewise => by
      have hSame := hLikewise.same
      cases key' with
      | expression e' =>
          simp only [Key.essence, Key.expression.injEq] at hSame
          rw [Key.agree]
          exact Expr.agree_of_likewise e e'
            ⟨hSame, hLikewise.defined, hLikewise.defined'⟩
      | _ => simp [Key.essence] at hSame
termination_by structural key => key

end

------------------------------------------------------------
-- Equivalence
------------------------------------------------------------

namespace Expr

/- Every number literal of the expression is a number. -/
def IsDefined
    (e : Expr) : Prop :=
  Defined e.parts

/- The same structure is the same essence, of defined expressions. -/
theorem sameStructure_iff
    {a b : Expr} :
    a.sameStructure b = true ↔
      a.essence = b.essence ∧ a.IsDefined ∧ b.IsDefined := by
  constructor
  · intro hAgree
    have hLikewise := likewise_of_agree a b hAgree
    exact ⟨hLikewise.same, hLikewise.defined, hLikewise.defined'⟩
  · rintro ⟨hSame, hDefined, hDefined'⟩
    exact agree_of_likewise a b ⟨hSame, hDefined, hDefined'⟩

/-
  An expression has its own structure exactly if it is defined, and
  what differs in nothing has the same structure.
-/
theorem sameStructure_equivalence :
    (∀ a : Expr, a.sameStructure a = true ↔ a.IsDefined) ∧
      (∀ a b : Expr,
        a.sameStructure b = true → b.sameStructure a = true) ∧
      (∀ a b c : Expr,
        a.sameStructure b = true → b.sameStructure c = true →
          a.sameStructure c = true) ∧
      ∀ a b : Expr,
        a.identical b = true → a.sameStructure b = true := by
  refine ⟨fun a => ?_, fun a b hAgree => ?_,
    fun a b c hFirst hSecond => ?_, fun a b hAgree => ?_⟩
  · rw [sameStructure_iff]
    exact ⟨fun hSame => hSame.2.1, fun hDefined =>
      ⟨rfl, hDefined, hDefined⟩⟩
  · rw [sameStructure_iff] at hAgree ⊢
    exact ⟨hAgree.1.symm, hAgree.2.2, hAgree.2.1⟩
  · rw [sameStructure_iff] at hFirst hSecond ⊢
    exact ⟨hFirst.1.trans hSecond.1, hFirst.2.1, hSecond.2.2⟩
  · have hLikewise := likewise_of_agree a b hAgree
    exact sameStructure_iff.mpr
      ⟨hLikewise.same, hLikewise.defined, hLikewise.defined'⟩

end Expr

end SchemaLang
