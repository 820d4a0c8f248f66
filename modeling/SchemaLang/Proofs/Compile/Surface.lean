import SchemaLang.Expr.Agreement
import SchemaLang.Proofs.Compile.Runs
import SchemaLang.Proofs.Expr.Layers
import SchemaLang.Proofs.Expr.Reflexive
import SchemaLang.Proofs.Expr.Structure
import SchemaLang.Proofs.Resolution.Evolution

/-
  How an expression is written does not matter. Two expressions of the
  same structure, without comments and without numbers as keys, whose
  chains are in parentheses alike, are compiled alike: only the places
  of errors and of removals may differ.

  Main declarations:
    * `Expr.isBare` and `Expr.groups`
    * `Form.like_of_agree`
    * `Expr.Corresponds`
    * `Likeness.surface`
    * `Compile.compile_surface`
-/

namespace SchemaLang

------------------------------------------------------------
-- Bare Expressions
------------------------------------------------------------

/- Whether a key is a number. -/
def Key.isNumber : Key → Bool
  | number _ => true
  | _ => false

/- Whether a member has no comments, and no number as its key. -/
def Member.isBare : Member → Bool
  | property key _ _ _ comments => comments.isEmpty && !key.isNumber
  | spread _ => true

/- Whether the members of an object literal are so. -/
def Form.isBare : Form → Bool
  | .object members => members.all Member.isBare
  | _ => true

namespace Expr

/- Whether an expression is so, apart from what is within it. -/
def isBareAlone
    (e : Expr) : Bool :=
  e.comments.isEmpty && e.form.isBare

/- Whether there are no comments, and no numbers as keys. -/
def isBare
    (e : Expr) : Bool :=
  e.parts.all isBareAlone

/- Whether each chain is in parentheses, in the order of the text. -/
def groups
    (e : Expr) : List Bool :=
  (e.parts.filter isChain).map fun part => part.note.parenthesized

end Expr

theorem Comments.isEmpty_iff
    {comments : Comments} :
    comments.isEmpty = true ↔ comments = {} := by
  rcases comments with ⟨leading, trailing⟩
  simp [isEmpty]

theorem Expr.isBareAlone_iff
    {e : Expr} :
    e.isBareAlone = true ↔ e.comments = {} ∧ e.form.isBare = true := by
  unfold isBareAlone
  rw [Bool.and_eq_true, Comments.isEmpty_iff]

------------------------------------------------------------
-- Agreement, One Layer
------------------------------------------------------------

/- All parts of some expressions are bare. -/
def Bare
    (parts : List Expr) : Prop :=
  ∀ part ∈ parts, part.isBareAlone = true

/- Two expressions have the same structure, and are bare. -/
structure Expr.Agrees
    (a b : Expr) : Prop where
  structured : Expr.agree false a b = true
  bare : Bare a.parts
  bare' : Bare b.parts

theorem Key.like_of_agree
    {key key' : Key}
    (hNumber : key.isNumber = false)
    (hNumber' : key'.isNumber = false)
    (hBare : Bare key.parts)
    (hBare' : Bare key'.parts)
    (hAgree : Key.agree false key key' = true) :
    Key.Like Expr.Agrees key key' := by
  cases key with
  | identifier name =>
      cases key' with
      | identifier name' =>
          have hSame : name = name' := by simpa [agree] using hAgree
          exact .word rfl (congrArg some hSame.symm)
      | string value' =>
          have hSame : name = value' := by
            simpa [agree, name?] using hAgree
          exact .word rfl (congrArg some hSame.symm)
      | number value' => cases hNumber'
      | _ => simp [agree] at hAgree
  | string value =>
      cases key' with
      | identifier name' =>
          have hSame : value = name' := by
            simpa [agree, name?] using hAgree
          exact .word rfl (congrArg some hSame.symm)
      | string value' =>
          have hSame : value = value' := by simpa [agree] using hAgree
          exact .word rfl (congrArg some hSame.symm)
      | number value' => cases hNumber'
      | _ => simp [agree] at hAgree
  | number value => cases hNumber
  | regex pattern flags =>
      cases key' with
      | regex pattern' flags' =>
          have hSame : pattern = pattern' ∧ flags = flags' := by
            simpa [agree] using hAgree
          rcases hSame with ⟨rfl, rfl⟩
          exact .regex pattern flags
      | _ => simp [agree] at hAgree
  | expression e =>
      cases key' with
      | expression e' =>
          rw [agree] at hAgree
          exact .expression ⟨hAgree, hBare, hBare'⟩
      | _ => simp [agree] at hAgree

theorem Expr.agrees_of_agreeAll
    {es es' : List Expr}
    (hBare : Bare (Expr.partsOfAll es))
    (hBare' : Bare (Expr.partsOfAll es'))
    (hAgree : Expr.agreeAll false es es' = true) :
    List.Forall₂ Expr.Agrees es es' := by
  induction es generalizing es' with
  | nil =>
      cases es' with
      | nil => exact .nil
      | cons e' rest' => simp [agreeAll] at hAgree
  | cons e rest ih =>
      cases es' with
      | nil => simp [agreeAll] at hAgree
      | cons e' rest' =>
          rw [agreeAll, Bool.and_eq_true] at hAgree
          have hFirst := List.forall_mem_append.mp hBare
          have hSecond := List.forall_mem_append.mp hBare'
          exact .cons ⟨hAgree.1, hFirst.1, hSecond.1⟩
            (ih hFirst.2 hSecond.2 hAgree.2)

theorem Member.like_of_agree
    {member member' : Member}
    (hAlone : member.isBare = true)
    (hAlone' : member'.isBare = true)
    (hBare : Bare member.parts)
    (hBare' : Bare member'.parts)
    (hAgree : Member.agree false member member' = true) :
    Member.Like (fun _ _ => True) Expr.Agrees member member' := by
  cases member with
  | property key computed value span comments =>
      cases member' with
      | property key' computed' value' span' comments' =>
          simp only [isBare, Bool.and_eq_true, Bool.not_eq_true'] at hAlone
          simp only [isBare, Bool.and_eq_true, Bool.not_eq_true'] at hAlone'
          simp only [agree, Bool.and_eq_true, beq_iff_eq, Bool.not_false,
            Bool.true_or, and_true] at hAgree
          rcases hAgree with ⟨⟨rfl, hKey⟩, hValue⟩
          have hFirst := List.forall_mem_append.mp hBare
          have hSecond := List.forall_mem_append.mp hBare'
          exact .property
            (Key.like_of_agree hAlone.2 hAlone'.2 hFirst.1 hSecond.1 hKey)
            computed ⟨hValue, hFirst.2, hSecond.2⟩ trivial comments
            comments'
      | spread e' => simp [agree] at hAgree
  | spread e =>
      cases member' with
      | property key' computed' value' span' comments' =>
          simp [agree] at hAgree
      | spread e' =>
          rw [agree] at hAgree
          exact .spread ⟨hAgree, hBare, hBare'⟩

theorem Member.like_of_agreeAll
    {members members' : List Member}
    (hAlone : members.all isBare = true)
    (hAlone' : members'.all isBare = true)
    (hBare : Bare (Member.partsOfAll members))
    (hBare' : Bare (Member.partsOfAll members'))
    (hAgree : Member.agreeAll false members members' = true) :
    List.Forall₂ (Member.Like (fun _ _ => True) Expr.Agrees) members
      members' := by
  induction members generalizing members' with
  | nil =>
      cases members' with
      | nil => exact .nil
      | cons member' rest' => simp [agreeAll] at hAgree
  | cons member rest ih =>
      cases members' with
      | nil => simp [agreeAll] at hAgree
      | cons member' rest' =>
          rw [agreeAll, Bool.and_eq_true] at hAgree
          rw [List.all_cons, Bool.and_eq_true] at hAlone hAlone'
          have hFirst := List.forall_mem_append.mp hBare
          have hSecond := List.forall_mem_append.mp hBare'
          exact .cons
            (like_of_agree hAlone.1 hAlone'.1 hFirst.1 hSecond.1 hAgree.1)
            (ih hAlone.2 hAlone'.2 hFirst.2 hSecond.2 hAgree.2)

/- Forms that agree are alike, and what is within them agrees. -/
theorem Form.like_of_agree
    {form form' : Form}
    (hAlone : form.isBare = true)
    (hAlone' : form'.isBare = true)
    (hBare : Bare form.parts)
    (hBare' : Bare form'.parts)
    (hAgree : Form.agree false form form' = true) :
    Form.Like (fun _ _ => True) Expr.Agrees form form' := by
  cases form with
  | assignment op target value =>
      cases form' with
      | assignment op' target' value' =>
          simp only [agree, Bool.and_eq_true, beq_iff_eq] at hAgree
          rcases hAgree with ⟨⟨rfl, hTarget⟩, hValue⟩
          have hFirst := List.forall_mem_append.mp hBare
          have hSecond := List.forall_mem_append.mp hBare'
          exact .assignment op ⟨hTarget, hFirst.1, hSecond.1⟩
            ⟨hValue, hFirst.2, hSecond.2⟩
      | _ => cases Form.ctorIdx_of_agree hAgree
  | binary op left right =>
      cases form' with
      | binary op' left' right' =>
          simp only [agree, Bool.and_eq_true, beq_iff_eq] at hAgree
          rcases hAgree with ⟨⟨rfl, hLeft⟩, hRight⟩
          have hFirst := List.forall_mem_append.mp hBare
          have hSecond := List.forall_mem_append.mp hBare'
          exact .binary op ⟨hLeft, hFirst.1, hSecond.1⟩
            ⟨hRight, hFirst.2, hSecond.2⟩
      | _ => cases Form.ctorIdx_of_agree hAgree
  | logical op left right =>
      cases form' with
      | logical op' left' right' =>
          simp only [agree, Bool.and_eq_true, beq_iff_eq] at hAgree
          rcases hAgree with ⟨⟨rfl, hLeft⟩, hRight⟩
          have hFirst := List.forall_mem_append.mp hBare
          have hSecond := List.forall_mem_append.mp hBare'
          exact .logical op ⟨hLeft, hFirst.1, hSecond.1⟩
            ⟨hRight, hFirst.2, hSecond.2⟩
      | _ => cases Form.ctorIdx_of_agree hAgree
  | unary op argument =>
      cases form' with
      | unary op' argument' =>
          simp only [agree, Bool.and_eq_true, beq_iff_eq] at hAgree
          rcases hAgree with ⟨rfl, hArgument⟩
          exact .unary op ⟨hArgument, hBare, hBare'⟩
      | _ => cases Form.ctorIdx_of_agree hAgree
  | identifier name =>
      cases form' with
      | identifier name' =>
          have hSame : name = name' := by simpa [agree] using hAgree
          subst hSame
          exact .identifier name
      | _ => cases Form.ctorIdx_of_agree hAgree
  | member object property computed =>
      cases form' with
      | member object' property' computed' =>
          simp only [agree, Bool.and_eq_true, beq_iff_eq] at hAgree
          rcases hAgree with ⟨⟨rfl, hObject⟩, hProperty⟩
          have hFirst := List.forall_mem_append.mp hBare
          have hSecond := List.forall_mem_append.mp hBare'
          exact .member ⟨hObject, hFirst.1, hSecond.1⟩
            ⟨hProperty, hFirst.2, hSecond.2⟩ computed
      | _ => cases Form.ctorIdx_of_agree hAgree
  | object members =>
      cases form' with
      | object members' =>
          rw [agree] at hAgree
          exact .object
            (Member.like_of_agreeAll hAlone hAlone' hBare hBare' hAgree)
      | _ => cases Form.ctorIdx_of_agree hAgree
  | array elements =>
      cases form' with
      | array elements' =>
          rw [agree] at hAgree
          exact .array (Expr.agrees_of_agreeAll hBare hBare' hAgree)
      | _ => cases Form.ctorIdx_of_agree hAgree
  | number value =>
      cases form' with
      | number value' =>
          rw [agree] at hAgree
          exact .number (.inr hAgree)
      | _ => cases Form.ctorIdx_of_agree hAgree
  | string value =>
      cases form' with
      | string value' =>
          have hSame : value = value' := by simpa [agree] using hAgree
          subst hSame
          exact .string value
      | _ => cases Form.ctorIdx_of_agree hAgree
  | boolean value =>
      cases form' with
      | boolean value' =>
          have hSame : value = value' := by simpa [agree] using hAgree
          subst hSame
          exact .boolean value
      | _ => cases Form.ctorIdx_of_agree hAgree
  | null =>
      cases form' with
      | null => exact .null
      | _ => cases Form.ctorIdx_of_agree hAgree
  | regex pattern flags =>
      cases form' with
      | regex pattern' flags' =>
          have hSame : pattern = pattern' ∧ flags = flags' := by
            simpa [agree] using hAgree
          rcases hSame with ⟨rfl, rfl⟩
          exact .regex pattern flags
      | _ => cases Form.ctorIdx_of_agree hAgree
  | call callee arguments =>
      cases form' with
      | call callee' arguments' =>
          rw [agree, Bool.and_eq_true] at hAgree
          have hFirst := List.forall_mem_append.mp hBare
          have hSecond := List.forall_mem_append.mp hBare'
          exact .call ⟨hAgree.1, hFirst.1, hSecond.1⟩
            (Expr.agrees_of_agreeAll hFirst.2 hSecond.2 hAgree.2)
      | _ => cases Form.ctorIdx_of_agree hAgree
  | arrow params body =>
      cases form' with
      | arrow params' body' =>
          rw [agree, Bool.and_eq_true] at hAgree
          have hFirst := List.forall_mem_append.mp hBare
          have hSecond := List.forall_mem_append.mp hBare'
          exact .arrow
            (Expr.agrees_of_agreeAll hFirst.1 hSecond.1 hAgree.1)
            ⟨hAgree.2, hFirst.2, hSecond.2⟩
      | _ => cases Form.ctorIdx_of_agree hAgree
  | conditional test consequent alternate =>
      cases form' with
      | conditional test' consequent' alternate' =>
          simp only [agree, Bool.and_eq_true] at hAgree
          rcases hAgree with ⟨⟨hTest, hConsequent⟩, hAlternate⟩
          have hFirst := List.forall_mem_append.mp hBare
          have hSecond := List.forall_mem_append.mp hBare'
          have hLater := List.forall_mem_append.mp hFirst.2
          have hLater' := List.forall_mem_append.mp hSecond.2
          exact .conditional ⟨hTest, hFirst.1, hSecond.1⟩
            ⟨hConsequent, hLater.1, hLater'.1⟩
            ⟨hAlternate, hLater.2, hLater'.2⟩
      | _ => cases Form.ctorIdx_of_agree hAgree
  | spread argument =>
      cases form' with
      | spread argument' =>
          rw [agree] at hAgree
          exact .spread ⟨hAgree, hBare, hBare'⟩
      | _ => cases Form.ctorIdx_of_agree hAgree

------------------------------------------------------------
-- Corresponding Parts
------------------------------------------------------------

namespace Expr

theorem Agrees.form
    {a b : Expr}
    (hAgrees : a.Agrees b) :
    Form.Like (fun _ _ => True) Expr.Agrees a.form b.form := by
  rcases a with ⟨form, note⟩
  rcases b with ⟨form', note'⟩
  rcases hAgrees with ⟨hStructured, hBare, hBare'⟩
  have hFirst := List.forall_mem_cons.mp hBare
  have hSecond := List.forall_mem_cons.mp hBare'
  rw [agree, Bool.and_eq_true] at hStructured
  exact Form.like_of_agree (isBareAlone_iff.mp hFirst.1).2
    (isBareAlone_iff.mp hSecond.1).2 hFirst.2 hSecond.2 hStructured.2

/- Expressions that agree have parts that do so one by one. -/
theorem Agrees.parts
    {a b : Expr}
    (hAgrees : a.Agrees b) :
    List.Forall₂ Agrees a.parts b.parts := by
  have hPasses :
      Passes (fun _ => True) fun part =>
        ∀ part', part.Agrees part' →
          List.Forall₂ Agrees part.parts part'.parts := by
    rintro ⟨form, note⟩ - hWithin ⟨form', note'⟩ hAgrees
    exact .cons hAgrees (hAgrees.form.forall₂_parts hWithin)
  exact a.forall_mem_parts hPasses (fun _ _ => trivial) a a.self_mem_parts
    b hAgrees

/- Two parts agree, and are in parentheses alike if they are chains. -/
structure Corresponds
    (a b : Expr) : Prop where
  agrees : a.Agrees b
  grouped :
    a.isChain = true → a.note.parenthesized = b.note.parenthesized

theorem Agrees.isChain
    {a b : Expr}
    (hAgrees : a.Agrees b) :
    a.isChain = b.isChain := by
  have hForm := hAgrees.form
  rcases a with ⟨form, note⟩
  rcases b with ⟨form', note'⟩
  cases hForm <;> rfl

/- Parts correspond one by one, if the chains among them do. -/
theorem corresponds_of_groups
    {parts parts' : List Expr}
    (hAgrees : List.Forall₂ Agrees parts parts')
    (hGroups :
      (parts.filter Expr.isChain).map (fun part => part.note.parenthesized) =
        (parts'.filter Expr.isChain).map
          fun part => part.note.parenthesized) :
    List.Forall₂ Corresponds parts parts' := by
  induction hAgrees with
  | nil => exact .nil
  | @cons part part' rest rest' hFirst _ ih =>
      cases hChain : part.isChain with
      | true =>
          have hChain' := hFirst.isChain.symm.trans hChain
          rw [List.filter_cons_of_pos hChain,
            List.filter_cons_of_pos hChain', List.map_cons,
            List.map_cons] at hGroups
          have hBoth := List.cons.inj hGroups
          exact .cons ⟨hFirst, fun _ => hBoth.1⟩ (ih hBoth.2)
      | false =>
          have hChain' := hFirst.isChain.symm.trans hChain
          rw [List.filter_cons_of_neg (by simp [hChain]),
            List.filter_cons_of_neg (by simp [hChain'])] at hGroups
          refine .cons ⟨hFirst, fun hTrue => ?_⟩ (ih hGroups)
          rw [hChain] at hTrue
          cases hTrue

/- All parts of two expressions correspond. -/
def Mirror
    (a b : Expr) : Prop :=
  List.Forall₂ Corresponds a.parts b.parts

theorem Mirror.corresponds
    {a b : Expr}
    (hMirror : a.Mirror b) :
    a.Corresponds b := by
  rcases a with ⟨form, note⟩
  rcases b with ⟨form', note'⟩
  cases hMirror with
  | cons hFirst _ => exact hFirst

theorem Mirror.form
    {like : Expr → Expr → Prop}
    (hLike : ∀ {a b : Expr}, a.Mirror b → like a b)
    {a b : Expr}
    (hMirror : a.Mirror b) :
    Form.Like (fun _ _ => True) like a.form b.form := by
  have hRefines : Refines Agrees like Corresponds :=
    ⟨fun hAgrees => hAgrees.parts.length_eq, fun _ => hLike⟩
  have hForm := hMirror.corresponds.agrees.form
  rcases a with ⟨form, note⟩
  rcases b with ⟨form', note'⟩
  cases hMirror with
  | cons _ hParts => exact hRefines.form hForm hParts

/- A bare expression has no comments. -/
theorem Agrees.comments
    {a b : Expr}
    (hAgrees : a.Agrees b) :
    a.comments = {} ∧ b.comments = {} :=
  ⟨(isBareAlone_iff.mp (hAgrees.bare a a.self_mem_parts)).1,
    (isBareAlone_iff.mp (hAgrees.bare' b b.self_mem_parts)).1⟩

end Expr

/- The members of a bare object literal have no comments. -/
theorem Bare.member_comments
    {members : List Member}
    {note : Note}
    (hBare : Bare (Expr.mk (.object members) note).parts) :
    ∀ member ∈ members, member.comments = {} := by
  have hBoth := List.forall_mem_cons.mp hBare
  have hMembers := (Expr.isBareAlone_iff.mp hBoth.1).2
  intro member hMember
  have hAlone := List.all_eq_true.mp hMembers member hMember
  cases member with
  | property key computed value span comments =>
      rw [Member.isBare, Bool.and_eq_true] at hAlone
      exact Comments.isEmpty_iff.mp hAlone.1
  | spread e =>
      have hWithin : e ∈ (Form.object members).parts := by
        rw [Form.parts, Member.partsOfAll_eq]
        exact List.mem_flatMap_of_mem hMember e.self_mem_parts
      exact (Expr.isBareAlone_iff.mp (hBoth.2 e hWithin)).1

------------------------------------------------------------
-- Compiling
------------------------------------------------------------

/- The view that does not show the places of removals. -/
def View.unplaced : View :=
  { place := fun _ => {} }

theorem View.isComplete_unplaced :
    View.unplaced.IsComplete :=
  ⟨rfl, rfl⟩

/- Expressions whose parts correspond are alike, or that are equal. -/
def Likeness.surface : Likeness where
  view := .unplaced
  located := fun _ _ => True
  like := fun a b => a.Mirror b ∨ b = a
  fair := View.isComplete_unplaced.isFair
  removals := fun _ => rfl
  form := by
    rintro a b (hMirror | rfl)
    · exact hMirror.form .inl
    · exact .refl b.form (fun _ _ => .inr rfl) fun _ _ => trivial
  place := fun _ => trivial
  described := by
    rintro a b (hMirror | rfl) schema schema' hSame
    · have hComments := hMirror.corresponds.agrees.comments
      rw [hComments.1, hComments.2]
      exact hSame.describe _
    · exact hSame.describe _
  grouped := by
    rintro a b (hMirror | rfl) hChain
    · exact hMirror.corresponds.grouped hChain
    · rfl
  members := by
    rintro members members' note note' (hMirror | hSame)
    · have hAgrees := hMirror.corresponds.agrees
      exact .of_empty none none hAgrees.bare.member_comments
        hAgrees.bare'.member_comments
    · cases hSame
      exact .refl View.isComplete_unplaced none members

namespace Compile

/- It is so whichever names may still be referred to. -/
theorem matches_surface
    (version : Version)
    {a b : Expr}
    (hMirror : a.Mirror b)
    (names : List String)
    (registry : Registry) :
    Matches (fun _ _ => True) View.unplaced.Same
        (outcome
          (expr { version := version }
            (expandWithin { version := version } names) a) registry).1
        (outcome
          (expr { version := version }
            (expandWithin { version := version } names) b) registry).1 ∧
      Registry.Like .unplaced Eq
        (outcome
          (expr { version := version }
            (expandWithin { version := version } names) a) registry).2
        (outcome
          (expr { version := version }
            (expandWithin { version := version } names) b) registry).2 := by
  have hRespects :
      Compiler.Respects .surface { version := version } :=
    Compiler.respects_builtin (fun _ => View.isComplete_unplaced) version
  have hRegistry : Registry.Like .unplaced Eq registry registry :=
    .refl fun _ _ _ => rfl
  have hDeclared :
      ∀ source source', source = source' →
        Likeness.surface.like source source' :=
    fun _ _ hSame => .inr hSame.symm
  exact Likeness.matches_expr hDeclared hRespects names hRegistry
    (.inl hMirror)

/-
  Two expressions that differ only in how they are written either both
  have a schema, or fail for the same cause. Schemas and names differ
  at most in the places of removals.
-/
theorem compile_surface
    (version : Version)
    {a b : Expr}
    (hStructure : a.sameStructure b = true)
    (hBare : a.isBare = true)
    (hBare' : b.isBare = true)
    (hGroups : a.groups = b.groups) :
    (∀ registry,
      Matches (fun _ _ => True) View.unplaced.Same
          (outcome (compile { version := version } a) registry).1
          (outcome (compile { version := version } b) registry).1 ∧
        Registry.Like .unplaced Eq
          (outcome (compile { version := version } a) registry).2
          (outcome (compile { version := version } b) registry).2) ∧
      ∀ machine, ∃ result result' after after',
        Matches (fun _ _ => True) View.unplaced.Same result result' ∧
          Registry.Like .unplaced Eq after after' ∧
          (∀ depth, machine.currentScope.depth a ≤ depth →
            Machine.outcome
                ((Machine.atDepth { version := version }
                  depth).compile a) machine =
              some (result, ⟨after, machine.resolving⟩)) ∧
          ∀ depth, machine.currentScope.depth b ≤ depth →
            Machine.outcome
                ((Machine.atDepth { version := version }
                  depth).compile b) machine =
              some (result', ⟨after', machine.resolving⟩) := by
  have hAgrees : a.Agrees b :=
    ⟨hStructure, List.all_eq_true.mp hBare, List.all_eq_true.mp hBare'⟩
  have hMirror : a.Mirror b :=
    Expr.corresponds_of_groups hAgrees.parts hGroups
  constructor
  · intro registry
    rw [outcome_compile, outcome_compile]
    exact matches_surface version hMirror _ registry
  · intro machine
    have hMatches :=
      matches_surface version hMirror machine.free machine.registry
    exact ⟨_, _, _, _, hMatches.1, hMatches.2,
      fun depth hDepth => machine_outcome_eq _ machine hDepth,
      fun depth hDepth => machine_outcome_eq _ machine hDepth⟩

/-
  The expression `{kept: (int || string), lost: N = !!{gone: undefined}}`
  on a line, with keys that are spelled in some way.
-/
def losing
    (spell : String → Key)
    (line : Nat)
    (parenthesized : Bool) : Expr :=
  let note : Note :=
    { span := .lines line line, parenthesized := parenthesized }
  let refer (name : String) : Expr := ⟨.identifier name, note⟩
  let property (name : String) (value : Expr) : Member :=
    .property (spell name) false value note.span {}
  let chain : Expr :=
    ⟨.logical .or (refer "int") (refer "string"),
      { note with parenthesized := true }⟩
  let lost : Expr := ⟨.object [property "gone" (refer "undefined")], note⟩
  let named : Expr :=
    ⟨.assignment .assign (refer "N")
      ⟨.unary .not ⟨.unary .not lost, note⟩, note⟩, note⟩
  ⟨.object [property "kept" chain, property "lost" named], note⟩

theorem sameStructure_losing :
    (losing .identifier 1 false).sameStructure (losing .string 7 true) =
      true := by
  simp [losing, Expr.sameStructure, Expr.agree, Form.agree,
    Member.agreeAll, Member.agree, Key.agree, Key.name?]

/- Its schema, with a removal on the line. -/
def losingSchema
    (line : Nat) : Schema :=
  let typed (name : String) : Schema := .object (.single "type" (.string name))
  let kept : Schema :=
    .object (.single "anyOf" (.array [typed "integer", typed "string"]))
  let lost : Schema :=
    .object
      (.of
        [("title", .string "N"), ("gone", .removal (.lines line line))])
  .object
    (.of
      [("type", .string "object"), ("additionalProperties", .bool false),
        ("required", .array [.string "kept", .string "lost"]),
        ("properties", .object (.of [("kept", kept), ("lost", lost)]))])

theorem outcome_losing :
    (outcome (compile {} (losing .identifier 1 false))
        Registry.initial).1 = .ok (losingSchema 1) ∧
      (outcome (compile {} (losing .string 7 true))
        Registry.initial).1 = .ok (losingSchema 7) := by
  unfold compile losing
  simp only [expr, all, memberList, propertyInto, literalMembers,
    literal, resolve, register, Chain.leaves, Chain.leavesAt,
    Bool.not_true, Bool.and_false, Bool.false_eq_true, if_false,
    List.cons_append, List.nil_append]
  constructor
  · rfl
  · rfl

/- The removal stands on another line, and the rest is the same. -/
theorem compile_surface_losing :
    (losing .identifier 1 false).groups = [true] ∧
      (losing .identifier 1 false).sameStructure
        (losing .string 7 true) = true ∧
      View.unplaced.Same (losingSchema 1) (losingSchema 7) ∧
      Registry.Like .unplaced Eq
        (outcome (compile {} (losing .identifier 1 false))
          Registry.initial).2
        (outcome (compile {} (losing .string 7 true))
          Registry.initial).2 := by
  have hSurface :=
    compile_surface .draft07 sameStructure_losing (by decide) (by decide)
      (by decide)
  rcases hSurface.1 Registry.initial with ⟨hMatches, hNames⟩
  rw [outcome_losing.1, outcome_losing.2] at hMatches
  cases hMatches with
  | ok hSame => exact ⟨by decide, sameStructure_losing, hSame, hNames⟩

end Compile

end SchemaLang
