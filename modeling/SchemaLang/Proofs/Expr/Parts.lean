import Mathlib.Tactic.Common
import SchemaLang.Compile.Chain
import SchemaLang.Compile.Range
import SchemaLang.Expr.Reference

/-
  The expressions within an expression, the names that they denote,
  and the names that they give.

  Main declarations:
    * `Expr.parts`
    * `Expr.forall_mem_parts`
    * `Expr.names` and `Expr.given`
    * `Expr.mem_names_of_mem_given`
-/

namespace SchemaLang

------------------------------------------------------------
-- Parts
------------------------------------------------------------

mutual

/- An expression and all expressions within it. -/
def Expr.parts : Expr → List Expr
  | ⟨form, note⟩ => ⟨form, note⟩ :: form.parts

/- The expressions within a form. -/
def Form.parts : Form → List Expr
  | .assignment _ target value => target.parts ++ value.parts
  | .binary _ left right => left.parts ++ right.parts
  | .logical _ left right => left.parts ++ right.parts
  | .unary _ argument => argument.parts
  | .identifier _ => []
  | .member object property _ => object.parts ++ property.parts
  | .object members => Member.partsOfAll members
  | .array elements => Expr.partsOfAll elements
  | .number _ => []
  | .string _ => []
  | .boolean _ => []
  | .null => []
  | .regex _ _ => []
  | .call callee arguments => callee.parts ++ Expr.partsOfAll arguments
  | .arrow params body => Expr.partsOfAll params ++ body.parts
  | .conditional test consequent alternate =>
    test.parts ++ (consequent.parts ++ alternate.parts)
  | .spread argument => argument.parts

/- The parts of all expressions. -/
def Expr.partsOfAll : List Expr → List Expr
  | [] => []
  | e :: rest => e.parts ++ Expr.partsOfAll rest

/- The expressions within a member. -/
def Member.parts : Member → List Expr
  | .property key _ value _ _ => key.parts ++ value.parts
  | .spread e => e.parts

/- The parts of all members. -/
def Member.partsOfAll : List Member → List Expr
  | [] => []
  | member :: rest => member.parts ++ Member.partsOfAll rest

/- The expressions within a key. -/
def Key.parts : Key → List Expr
  | .identifier _ => []
  | .string _ => []
  | .number _ => []
  | .regex _ _ => []
  | .expression e => e.parts

end

attribute [simp] Expr.parts Form.parts Expr.partsOfAll Member.parts
  Member.partsOfAll Key.parts

namespace Expr

theorem self_mem_parts
    (e : Expr) :
    e ∈ e.parts := by
  cases e
  simp

theorem partsOfAll_eq
    (es : List Expr) :
    partsOfAll es = es.flatMap parts := by
  induction es with
  | nil => rfl
  | cons e rest ih => simp [ih]

end Expr

theorem Member.partsOfAll_eq
    (members : List Member) :
    partsOfAll members = members.flatMap parts := by
  induction members with
  | nil => rfl
  | cons member rest ih => simp [ih]

------------------------------------------------------------
-- Induction
------------------------------------------------------------

/-
  A fact passes from what is within a good expression to the
  expression itself.
-/
def Expr.Passes
    (good known : Expr → Prop) : Prop :=
  ∀ e, good e → (∀ part ∈ e.form.parts, known part) → known e

variable {good known : Expr → Prop}

mutual

/- Such a fact holds of all parts, if they are good. -/
theorem Expr.forall_mem_parts
    (hStep : Expr.Passes good known) :
    (e : Expr) → (∀ part ∈ e.parts, good part) →
      ∀ part ∈ e.parts, known part
  | ⟨form, note⟩, hGood => by
      rw [Expr.parts, List.forall_mem_cons] at hGood ⊢
      have hForm := form.forall_mem_parts hStep hGood.2
      exact ⟨hStep ⟨form, note⟩ hGood.1 hForm, hForm⟩

theorem Form.forall_mem_parts
    (hStep : Expr.Passes good known) :
    (form : Form) → (∀ part ∈ form.parts, good part) →
      ∀ part ∈ form.parts, known part
  | .assignment _ target value, hGood => by
      rw [Form.parts, List.forall_mem_append] at hGood ⊢
      exact ⟨target.forall_mem_parts hStep hGood.1,
        value.forall_mem_parts hStep hGood.2⟩
  | .binary _ left right, hGood => by
      rw [Form.parts, List.forall_mem_append] at hGood ⊢
      exact ⟨left.forall_mem_parts hStep hGood.1,
        right.forall_mem_parts hStep hGood.2⟩
  | .logical _ left right, hGood => by
      rw [Form.parts, List.forall_mem_append] at hGood ⊢
      exact ⟨left.forall_mem_parts hStep hGood.1,
        right.forall_mem_parts hStep hGood.2⟩
  | .unary _ argument, hGood => argument.forall_mem_parts hStep hGood
  | .identifier _, hGood => by simp
  | .member object property _, hGood => by
      rw [Form.parts, List.forall_mem_append] at hGood ⊢
      exact ⟨object.forall_mem_parts hStep hGood.1,
        property.forall_mem_parts hStep hGood.2⟩
  | .object members, hGood => Member.forall_mem_partsOfAll hStep members hGood
  | .array elements, hGood => Expr.forall_mem_partsOfAll hStep elements hGood
  | .number _, hGood => by simp
  | .string _, hGood => by simp
  | .boolean _, hGood => by simp
  | .null, hGood => by simp
  | .regex _ _, hGood => by simp
  | .call callee arguments, hGood => by
      rw [Form.parts, List.forall_mem_append] at hGood ⊢
      exact ⟨callee.forall_mem_parts hStep hGood.1,
        Expr.forall_mem_partsOfAll hStep arguments hGood.2⟩
  | .arrow params body, hGood => by
      rw [Form.parts, List.forall_mem_append] at hGood ⊢
      exact ⟨Expr.forall_mem_partsOfAll hStep params hGood.1,
        body.forall_mem_parts hStep hGood.2⟩
  | .conditional test consequent alternate, hGood => by
      rw [Form.parts, List.forall_mem_append,
        List.forall_mem_append] at hGood ⊢
      exact ⟨test.forall_mem_parts hStep hGood.1,
        consequent.forall_mem_parts hStep hGood.2.1,
        alternate.forall_mem_parts hStep hGood.2.2⟩
  | .spread argument, hGood => argument.forall_mem_parts hStep hGood

theorem Expr.forall_mem_partsOfAll
    (hStep : Expr.Passes good known) :
    (es : List Expr) → (∀ part ∈ Expr.partsOfAll es, good part) →
      ∀ part ∈ Expr.partsOfAll es, known part
  | [], _ => by simp
  | e :: rest, hGood => by
      rw [Expr.partsOfAll, List.forall_mem_append] at hGood ⊢
      exact ⟨e.forall_mem_parts hStep hGood.1,
        Expr.forall_mem_partsOfAll hStep rest hGood.2⟩

theorem Member.forall_mem_parts
    (hStep : Expr.Passes good known) :
    (member : Member) → (∀ part ∈ member.parts, good part) →
      ∀ part ∈ member.parts, known part
  | .property key _ value _ _, hGood => by
      rw [Member.parts, List.forall_mem_append] at hGood ⊢
      exact ⟨key.forall_mem_parts hStep hGood.1,
        value.forall_mem_parts hStep hGood.2⟩
  | .spread e, hGood => e.forall_mem_parts hStep hGood

theorem Member.forall_mem_partsOfAll
    (hStep : Expr.Passes good known) :
    (members : List Member) →
      (∀ part ∈ Member.partsOfAll members, good part) →
        ∀ part ∈ Member.partsOfAll members, known part
  | [], _ => by simp
  | member :: rest, hGood => by
      rw [Member.partsOfAll, List.forall_mem_append] at hGood ⊢
      exact ⟨member.forall_mem_parts hStep hGood.1,
        Member.forall_mem_partsOfAll hStep rest hGood.2⟩

theorem Key.forall_mem_parts
    (hStep : Expr.Passes good known) :
    (key : Key) → (∀ part ∈ key.parts, good part) →
      ∀ part ∈ key.parts, known part
  | .identifier _, _ => by simp
  | .string _, _ => by simp
  | .number _, _ => by simp
  | .regex _ _, _ => by simp
  | .expression e, hGood => e.forall_mem_parts hStep hGood

end

/- What is within a part of a form is within the form. -/
theorem Form.mem_parts_trans
    {inner part : Expr}
    {form : Form}
    (hInner : inner ∈ part.parts)
    (hPart : part ∈ form.parts) :
    inner ∈ form.parts := by
  have hPasses :
      Expr.Passes (· ∈ form.parts) fun part =>
        ∀ inner ∈ part.parts, inner ∈ form.parts := by
    rintro ⟨within, note⟩ hWhole hWithin inner hInner
    rcases List.mem_cons.mp hInner with rfl | hDeeper
    · exact hWhole
    · exact hWithin inner hDeeper inner inner.self_mem_parts
  exact form.forall_mem_parts hPasses (fun _ => id) part hPart inner
    hInner

namespace Expr

theorem mem_parts_trans
    {inner part e : Expr}
    (hInner : inner ∈ part.parts)
    (hPart : part ∈ e.parts) :
    inner ∈ e.parts := by
  rcases e with ⟨form, note⟩
  rcases List.mem_cons.mp hPart with rfl | hWithin
  · exact hInner
  · exact List.mem_cons_of_mem _ (Form.mem_parts_trans hInner hWithin)

------------------------------------------------------------
-- Names
------------------------------------------------------------

/- The names that an expression and its parts denote. -/
def names
    (e : Expr) : List String :=
  e.parts.filterMap fun part => part.referenceName.toOption

/-
  The name that an expression gives: the target of an assignment, or
  the parameter of a function that has no other.
-/
def givenName? : Expr → Option String
  | ⟨.assignment .assign target _, _⟩ => target.referenceName.toOption
  | ⟨.arrow [param] _, _⟩ => param.referenceName.toOption
  | _ => none

/- The names that an expression and its parts give. -/
def given
    (e : Expr) : List String :=
  e.parts.filterMap givenName?

@[simp]
theorem names_identifier
    (name : String)
    (note : Note) :
    (⟨.identifier name, note⟩ : Expr).names = [name] :=
  rfl

theorem mem_names
    {part e : Expr}
    {name : String}
    (hPart : part ∈ e.parts)
    (hName : part.referenceName = .ok name) :
    name ∈ e.names := by
  refine List.mem_filterMap.mpr ⟨part, hPart, ?_⟩
  rw [hName]
  rfl

/- A name that is given is denoted by what it is given to. -/
theorem exists_part_of_givenName?
    {e : Expr}
    {name : String}
    (hGiven : e.givenName? = some name) :
    ∃ part ∈ e.parts, part.referenceName.toOption = some name := by
  unfold givenName? at hGiven
  split at hGiven
  · rename_i target value note
    refine ⟨target, ?_, hGiven⟩
    simp [target.self_mem_parts]
  · rename_i param body note
    refine ⟨param, ?_, hGiven⟩
    simp [param.self_mem_parts]
  · cases hGiven

theorem mem_names_of_mem_given
    {e : Expr}
    {name : String}
    (hName : name ∈ e.given) :
    name ∈ e.names := by
  rcases List.mem_filterMap.mp hName with ⟨giver, hGiver, hGiven⟩
  rcases exists_part_of_givenName? hGiven with ⟨part, hPart, hDenotes⟩
  exact List.mem_filterMap.mpr
    ⟨part, mem_parts_trans hPart hGiver, hDenotes⟩

end Expr

------------------------------------------------------------
-- Values, Leaves And Operands
------------------------------------------------------------

/- What is within the value of a property is within the members. -/
theorem Member.parts_value_subset
    {key : Key}
    {computed : Bool}
    {value : Expr}
    {span : Span}
    {comments : Comments}
    {members : List Member}
    (hMember : .property key computed value span comments ∈ members) :
    value.parts ⊆ partsOfAll members := by
  intro part hPart
  rw [partsOfAll_eq]
  refine List.mem_flatMap_of_mem hMember ?_
  rw [Member.parts]
  exact List.mem_append_right _ hPart

theorem Chain.mem_parts_of_mem_leavesAt
    {whole : Bool}
    {leaf e : Expr}
    (hLeaf : leaf ∈ leavesAt whole e) :
    leaf ∈ e.parts := by
  fun_induction leavesAt whole e with
  | case1 whole op left right note hParenthesized =>
      rw [List.mem_singleton] at hLeaf
      subst hLeaf
      exact Expr.self_mem_parts _
  | case2 whole op left right note hChain ihLeft ihRight =>
      simp only [Expr.parts, Form.parts, List.mem_cons, List.mem_append]
      rcases List.mem_append.mp hLeaf with hLeft | hRight
      · exact .inr (.inl (ihLeft hLeft))
      · exact .inr (.inr (ihRight hRight))
  | case3 whole e hOther =>
      rw [List.mem_singleton] at hLeaf
      subst hLeaf
      exact Expr.self_mem_parts _

/- What is within the leaves of a chain is within its operands. -/
theorem Chain.partsOfAll_leaves_subset
    (op : LogicalOp)
    (left right : Expr)
    (note : Note) :
    Expr.partsOfAll (leaves ⟨.logical op left right, note⟩) ⊆
      (Form.logical op left right).parts := by
  intro part hPart
  rw [Expr.partsOfAll_eq] at hPart
  rcases List.mem_flatMap.mp hPart with ⟨leaf, hLeaf, hInner⟩
  refine Form.mem_parts_trans hInner ?_
  have hSides : leaf ∈ leavesAt false left ++ leavesAt false right := by
    simpa [leaves, leavesAt] using hLeaf
  rw [Form.parts, List.mem_append]
  rcases List.mem_append.mp hSides with hLeft | hRight
  · exact .inl (mem_parts_of_mem_leavesAt hLeft)
  · exact .inr (mem_parts_of_mem_leavesAt hRight)

/- The operand of a range is within the range. -/
theorem Limited.operand_mem_parts
    {e : Expr}
    {range : Limited}
    (hRange : of? e = some range) :
    range.operand ∈ e.form.parts := by
  cases written_of_of? hRange with
  | between => simp [Expr.form, Expr.self_mem_parts]
  | bound => simp [Expr.form, Expr.self_mem_parts]

end SchemaLang
