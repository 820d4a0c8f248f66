import SchemaLang.Proofs.Compile.Runs
import SchemaLang.Proofs.Expr.Reflexive
import SchemaLang.Session

/-
  What comments do. An expression without calls is compiled like the
  same expression without comments, as far as descriptions are not
  seen. But a schema may be taken as a map of properties, and then its
  description is a property that may be required.

  Main declarations:
    * `Expr.withoutComments` and `Expr.isCallFree`
    * `View.undescribed` and `Likeness.uncommented`
    * `Session.compileTree_withoutComments`
    * `Session.description_becomes_required`
-/

namespace SchemaLang

------------------------------------------------------------
-- Expressions Without Comments
------------------------------------------------------------

mutual

/- An expression with all comments taken away. -/
def Expr.withoutComments : Expr → Expr
  | ⟨form, note⟩ => ⟨form.withoutComments, { note with comments := {} }⟩

def Form.withoutComments : Form → Form
  | .assignment op target value =>
    .assignment op target.withoutComments value.withoutComments
  | .binary op left right =>
    .binary op left.withoutComments right.withoutComments
  | .logical op left right =>
    .logical op left.withoutComments right.withoutComments
  | .unary op argument => .unary op argument.withoutComments
  | .identifier name => .identifier name
  | .member object property computed =>
    .member object.withoutComments property.withoutComments computed
  | .object members => .object (Member.allWithoutComments members)
  | .array elements => .array (Expr.allWithoutComments elements)
  | .number value => .number value
  | .string value => .string value
  | .boolean value => .boolean value
  | .null => .null
  | .regex pattern flags => .regex pattern flags
  | .call callee arguments =>
    .call callee.withoutComments (Expr.allWithoutComments arguments)
  | .arrow params body =>
    .arrow (Expr.allWithoutComments params) body.withoutComments
  | .conditional test consequent alternate =>
    .conditional test.withoutComments consequent.withoutComments
      alternate.withoutComments
  | .spread argument => .spread argument.withoutComments

def Expr.allWithoutComments : List Expr → List Expr
  | [] => []
  | e :: rest => e.withoutComments :: Expr.allWithoutComments rest

def Member.withoutComments : Member → Member
  | .property key computed value span _ =>
    .property key.withoutComments computed value.withoutComments span {}
  | .spread e => .spread e.withoutComments

def Member.allWithoutComments : List Member → List Member
  | [] => []
  | member :: rest =>
    member.withoutComments :: Member.allWithoutComments rest

def Key.withoutComments : Key → Key
  | .identifier name => .identifier name
  | .string value => .string value
  | .number value => .number value
  | .regex pattern flags => .regex pattern flags
  | .expression e => .expression e.withoutComments

end

/- Whether an expression is a call. -/
def Expr.isCall : Expr → Bool
  | ⟨.call _ _, _⟩ => true
  | _ => false

/- Whether there is no call within an expression. -/
def Expr.isCallFree
    (e : Expr) : Bool :=
  e.parts.all fun part => !part.isCall

------------------------------------------------------------
-- Likeness
------------------------------------------------------------

section

variable {like : Expr → Expr → Prop}

theorem Expr.forall₂_withoutComments
    {es : List Expr}
    (hLike :
      ∀ part ∈ Expr.partsOfAll es, like part part.withoutComments) :
    List.Forall₂ like es (Expr.allWithoutComments es) := by
  induction es with
  | nil => exact .nil
  | cons e rest ih =>
      rw [Expr.partsOfAll, List.forall_mem_append] at hLike
      exact .cons (hLike.1 e e.self_mem_parts) (ih hLike.2)

theorem Member.like_withoutComments
    {member : Member}
    (hLike : ∀ part ∈ member.parts, like part part.withoutComments) :
    Member.Like Eq like member member.withoutComments := by
  cases member with
  | property key computed value span comments =>
      rw [Member.parts, List.forall_mem_append] at hLike
      refine .property ?_ computed (hLike.2 value value.self_mem_parts)
        rfl comments {}
      cases key with
      | identifier name => exact .word rfl rfl
      | string value => exact .word rfl rfl
      | number value => exact .number value
      | regex pattern flags => exact .regex pattern flags
      | expression e => exact .expression (hLike.1 e e.self_mem_parts)
  | spread e => exact .spread (hLike e e.self_mem_parts)

theorem Member.forall₂_withoutComments
    {members : List Member}
    (hLike :
      ∀ part ∈ Member.partsOfAll members,
        like part part.withoutComments) :
    List.Forall₂ (Member.Like Eq like) members
      (Member.allWithoutComments members) := by
  induction members with
  | nil => exact .nil
  | cons member rest ih =>
      rw [Member.partsOfAll, List.forall_mem_append] at hLike
      exact .cons (like_withoutComments hLike.1) (ih hLike.2)

/- A form is like itself without comments, if what is within it is. -/
theorem Form.like_withoutComments
    {form : Form}
    (hLike : ∀ part ∈ form.parts, like part part.withoutComments) :
    Form.Like Eq like form form.withoutComments := by
  have hOwn :
      ∀ {e : Expr}, (∀ part ∈ e.parts, like part part.withoutComments) →
        like e e.withoutComments :=
    fun hParts => hParts _ (Expr.self_mem_parts _)
  cases form with
  | assignment op target value =>
      rw [Form.parts, List.forall_mem_append] at hLike
      exact .assignment op (hOwn hLike.1) (hOwn hLike.2)
  | binary op left right =>
      rw [Form.parts, List.forall_mem_append] at hLike
      exact .binary op (hOwn hLike.1) (hOwn hLike.2)
  | logical op left right =>
      rw [Form.parts, List.forall_mem_append] at hLike
      exact .logical op (hOwn hLike.1) (hOwn hLike.2)
  | unary op argument => exact .unary op (hOwn hLike)
  | identifier name => exact .identifier name
  | member object property computed =>
      rw [Form.parts, List.forall_mem_append] at hLike
      exact .member (hOwn hLike.1) (hOwn hLike.2) computed
  | object members => exact .object (Member.forall₂_withoutComments hLike)
  | array elements => exact .array (Expr.forall₂_withoutComments hLike)
  | number value => exact .number (.inl rfl)
  | string value => exact .string value
  | boolean value => exact .boolean value
  | null => exact .null
  | regex pattern flags => exact .regex pattern flags
  | call callee arguments =>
      rw [Form.parts, List.forall_mem_append] at hLike
      exact .call (hOwn hLike.1) (Expr.forall₂_withoutComments hLike.2)
  | arrow params body =>
      rw [Form.parts, List.forall_mem_append] at hLike
      exact .arrow (Expr.forall₂_withoutComments hLike.1) (hOwn hLike.2)
  | conditional test consequent alternate =>
      rw [Form.parts, List.forall_mem_append,
        List.forall_mem_append] at hLike
      exact .conditional (hOwn hLike.1) (hOwn hLike.2.1)
        (hOwn hLike.2.2)
  | spread argument => exact .spread (hOwn hLike)

end

/- The view that shows no descriptions, nor that one is required. -/
def View.undescribed : View :=
  { descriptions := false, demands := false }

/- There is no call within what is within a call-free expression. -/
theorem Expr.isCallFree_of_mem
    {part e : Expr}
    (hFree : e.isCallFree = true)
    (hPart : part ∈ e.form.parts) :
    part.isCallFree = true := by
  rcases e with ⟨form, note⟩
  refine List.all_eq_true.mpr fun inner hInner => ?_
  exact List.all_eq_true.mp hFree inner
    (List.mem_cons_of_mem _ (Form.mem_parts_trans hInner hPart))

/- Without calls, an expression is like itself without comments. -/
def Likeness.uncommented : Likeness where
  view := .undescribed
  located := Eq
  like := fun e e' =>
    e.isCallFree = true ∧ (e' = e ∨ e' = e.withoutComments)
  fair := fun hDemands => Bool.noConfusion hDemands
  removals := fun hSame => hSame ▸ rfl
  form := by
    rintro e e' ⟨hFree, rfl | rfl⟩
    · exact .refl e'.form
        (fun part hPart => ⟨Expr.isCallFree_of_mem hFree hPart, .inl rfl⟩)
        fun _ _ => rfl
    · rcases e with ⟨form, note⟩
      exact Form.like_withoutComments fun part hPart =>
        ⟨Expr.isCallFree_of_mem hFree hPart, .inr rfl⟩
  place := by
    rintro e e' ⟨-, rfl | rfl⟩
    · rfl
    · cases e
      rfl
  described := by
    intro e e' _ schema schema' hSame
    exact (View.same_describe rfl _ schema).trans
      (hSame.trans (View.same_describe rfl _ schema').symm)
  grouped := by
    rintro e e' ⟨-, rfl | rfl⟩ -
    · rfl
    · cases e
      rfl
  members := fun _ => .of_hidden rfl _ _ _ _

theorem Likeness.not_relatesCalls_uncommented :
    ¬ Likeness.uncommented.RelatesCalls := by
  rintro ⟨callee, arguments, note, e', hFree, -⟩
  have hSelf := List.all_eq_true.mp hFree _ (Expr.self_mem_parts _)
  cases hSelf

------------------------------------------------------------
-- Sessions
------------------------------------------------------------

namespace Session

open Compile (outcome)

/- A session keeps the names behind a result, but not behind an error. -/
theorem compileTree_of_outcome
    {session : Session}
    {e : Expr}
    {result : Except CompileError Schema}
    {after : Registry}
    (hOutcome :
      outcome (Compile.compile session.compiler e) session.registry =
        (result, after)) :
    session.compileTree e =
      match result with
      | .ok schema =>
        (.ok (schema.describe e.comments.preferred),
          { session with registry := after })
      | .error error => (.error error, session) := by
  unfold outcome at hOutcome
  cases result with
  | ok schema => simp only [compileTree, run, hOutcome]
  | error error => simp only [compileTree, run, hOutcome]

/-
  Comments only describe. Without calls, an expression with comments
  fails as it does without them; or it has a schema that is the same
  but for descriptions, and for whether one is required.
-/
theorem compileTree_withoutComments
    (session : Session)
    (hDirectives : session.compiler.directives = Method.directives)
    (hSources :
      ∀ name source,
        (name, Registry.Entry.source source) ∈ session.registry.toList →
          source.isCallFree = true)
    {e : Expr}
    (hFree : e.isCallFree = true) :
    Matches Eq View.undescribed.Same (session.compileTree e).1
        (session.compileTree e.withoutComments).1 ∧
      Registry.Like .undescribed Eq (session.compileTree e).2.registry
        (session.compileTree e.withoutComments).2.registry := by
  -- Both runs start with the same names; what those declare is
  -- compared with itself, so there must be no calls in it either.
  let declared : Expr → Expr → Prop := fun source source' =>
    source.isCallFree = true ∧ source = source'
  have hStart :
      Registry.Like .undescribed declared session.registry
        session.registry :=
    .refl fun name source hMember => ⟨hSources name source hMember, rfl⟩
  have hRuns :=
    Likeness.uncommented.matches_compile
      (fun source source' hBoth => ⟨hBoth.1, .inl hBoth.2.symm⟩)
      (Compiler.respects_of_directives
        Likeness.not_relatesCalls_uncommented hDirectives)
      hStart ⟨hFree, .inr rfl⟩
  have hPlain :
      ∀ {registry registry' : Registry},
        Registry.Like .undescribed declared registry registry' →
          Registry.Like .undescribed Eq registry registry' :=
    fun hLike => hLike.imp fun _ _ hEntry =>
      ⟨hEntry.1, hEntry.2.imp fun _ _ hBoth => hBoth.2⟩
  rcases hFirst :
      outcome (Compile.compile session.compiler e) session.registry with
    ⟨result, after⟩
  rcases hSecond :
      outcome (Compile.compile session.compiler e.withoutComments)
        session.registry with ⟨result', after'⟩
  rw [hFirst, hSecond] at hRuns
  rw [compileTree_of_outcome hFirst, compileTree_of_outcome hSecond]
  rcases hRuns with ⟨hMatches, hAfter⟩
  cases hMatches with
  | error cause hLocated => exact ⟨.error cause hLocated, hPlain hStart⟩
  | ok hSame =>
      have hDescribed :=
        Likeness.uncommented.described ⟨hFree, .inr rfl⟩ hSame
      exact ⟨.ok hDescribed, hPlain hAfter⟩

/-
  The expression `[X = !!{}, {...{...!!{required: ["description"],
  properties: X}}}]`, with comments at the name that it gives.
-/
def noted
    (comments : Comments) : Expr :=
  let named : Expr := ⟨.identifier "X", {}⟩
  let written (e : Expr) : Expr := ⟨.unary .not ⟨.unary .not e, {}⟩, {}⟩
  let property (name : String) (value : Expr) : Member :=
    .property (.identifier name) false value {} {}
  let spread (e : Expr) : Expr :=
    ⟨.object [.spread ⟨.spread e, {}⟩], {}⟩
  let names : Expr := ⟨.array [⟨.string "description", {}⟩], {}⟩
  let wanting : Expr :=
    ⟨.object [property "required" names, property "properties" named], {}⟩
  ⟨.array
    [⟨.assignment .assign named (written ⟨.object [], {}⟩),
        { comments := comments }⟩,
      spread (spread (written wanting))], {}⟩

def noteComment : Comments :=
  { leading := [⟨"note", {}⟩] }

/- Its schema, if `X` stands for some map. -/
def notedSchema
    (named : Fields)
    (required : List Schema) : Schema :=
  .object
    (.of
      [("type", .string "array"),
        ("items", .array
          [.object named,
            .object
              (.of
                [("type", .string "object"),
                  ("additionalProperties", .bool false),
                  ("required", .array required),
                  ("properties", .object named)])])])

/- The names that the second of its items requires. -/
def secondRequired
    (schema : Schema) : List String :=
  match schema.get? "items" with
  | some (.array [_, .object second]) => Fields.requiredNames second
  | _ => []

/- `X`, with a description and without. -/
def titledX : Fields :=
  .single "title" (.string "X")

def describedX : Fields :=
  .of [("description", .string "note"), ("title", .string "X")]

theorem compileTree_noted :
    (({} : Session).compileTree (noted noteComment)).1 =
        .ok (notedSchema describedX [.string "description"]) ∧
      (({} : Session).compileTree (noted {})).1 =
        .ok (notedSchema titledX []) := by
  unfold compileTree run Compile.compile noted noteComment
  simp only [Compile.expr, Compile.array, Compile.tuple, Compile.rest,
    Compile.memberList, Compile.spreadInto, Compile.literalMembers,
    Compile.literal, Compile.literalAll, Compile.resolve,
    Compile.register]
  exact ⟨rfl, rfl⟩

/- The schemas differ in descriptions, and in whether one is required. -/
theorem compileTree_withoutComments_noted :
    (noted noteComment).isCallFree = true ∧
      (noted noteComment).withoutComments = noted {} ∧
      View.undescribed.Same
        (notedSchema describedX [.string "description"])
        (notedSchema titledX []) := by
  have hFree : (noted noteComment).isCallFree = true := by decide
  have hBare : (noted noteComment).withoutComments = noted {} := rfl
  have hMatches :=
    (compileTree_withoutComments {} rfl (by simp [Registry.initial])
      hFree).1
  rw [hBare, compileTree_noted.1, compileTree_noted.2] at hMatches
  cases hMatches with
  | ok hSame => exact ⟨hFree, hBare, hSame⟩

/-
  It is not enough that descriptions are not seen. What is named is a
  map of properties here, and its description is one of them; so its
  name stays among the names that are required, and is dropped from
  them without the comment.
-/
theorem description_becomes_required :
    (noted noteComment).isCallFree = true ∧
      ∃ schema schema',
        (({} : Session).compileTree (noted noteComment)).1 =
            .ok schema ∧
          (({} : Session).compileTree
            (noted noteComment).withoutComments).1 = .ok schema' ∧
          ¬ View.Same { descriptions := false } schema schema' := by
  refine ⟨by decide, _, _, compileTree_noted.1, compileTree_noted.2, ?_⟩
  intro hSame
  have hRequired := congrArg secondRequired hSame
  revert hRequired
  decide

end Session

end SchemaLang
