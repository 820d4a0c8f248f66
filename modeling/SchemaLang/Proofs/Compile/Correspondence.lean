import SchemaLang.Proofs.Compile.Paired

/-
  Compiling two expressions that are alike, side by side. The second
  run mirrors the first if it does so where names are resolved and
  where names are given; all other steps look at neither.

  Main declarations:
    * `Compile.Grounded`
    * `Compile.compiled_of_parts` and `Compile.written_of_parts`
    * `Compile.paired_of_grounded`
-/

namespace SchemaLang

------------------------------------------------------------
-- Patterns And Names Of Schemas
------------------------------------------------------------

namespace View

variable {view : View}

theorem SameFields.addPatterns
    {fields fields' patterns patterns' : Fields}
    (hFields : view.SameFields fields fields')
    (hPatterns : view.SameFields patterns patterns') :
    view.SameFields (Fields.addPatterns fields patterns)
      (Fields.addPatterns fields' patterns') := by
  have hGet :=
    rel_of_map_seen (hFields.get?
      (shows_of_ne "patternProperties" (by decide)) (by decide))
  unfold Fields.addPatterns
  generalize fields.get? "patternProperties" = value at hGet ⊢
  generalize fields'.get? "patternProperties" = value' at hGet ⊢
  cases hGet with
  | none => exact hFields.insert _ (same_object hPatterns)
  | @some value value' hValue =>
      cases value with
      | object existing =>
          rcases hValue.exists_fields with ⟨existing', rfl, hExisting⟩
          exact hFields.insert _
            (same_object (hExisting.insertAll (sameFields_iff.mp hPatterns)))
      | _ =>
          cases value' with
          | object existing' => simp [Same, Schema.seen] at hValue
          | _ => exact hFields.insert _ (same_object hPatterns)

theorem Same.titled
    {schema schema' : Schema}
    (hSame : view.Same schema schema')
    (name : String) :
    view.Same (Compile.titled name schema)
      (Compile.titled name schema') := by
  unfold Compile.titled
  split
  · exact hSame
  · exact hSame.setTitle name

/- Two cases have conditions and consequences that are seen alike. -/
def SameCase
    (view : View)
    (case case' : Schema × Schema) : Prop :=
  view.Same case.1 case'.1 ∧ view.Same case.2 case'.2

/- The last branch is the same all the way up, so it is proved first. -/
theorem same_switch
    {cases cases' : List (Schema × Schema)}
    (hCases : List.Forall₂ view.SameCase cases cases') :
    view.Same (Chain.switch cases) (Chain.switch cases') := by
  have hLast :
      view.Same (.object (.single "oneOf" (.array (cases.map Prod.fst))))
        (.object (.single "oneOf" (.array (cases'.map Prod.fst)))) := by
    refine same_of (SamePairs.cons rfl _ (same_array ?_))
    rw [sameItems_iff, List.forall₂_map_left_iff,
      List.forall₂_map_right_iff]
    exact hCases.imp fun _ _ hCase => hCase.1
  unfold Chain.switch
  dsimp only
  generalize Schema.object (.single "oneOf" (.array (cases.map Prod.fst))) =
    last at hLast ⊢
  generalize Schema.object (.single "oneOf" (.array (cases'.map Prod.fst))) =
    last' at hLast ⊢
  induction hCases with
  | nil => exact hLast
  | cons hCase _ ih =>
      exact same_of (SamePairs.cons
        (SamePairs.cons (SamePairs.cons rfl _ ih) _ hCase.2) _ hCase.1)

end View

namespace Compile

/-
  The names that two expressions denote are resolved alike, and the
  name that they give keeps names related.
-/
structure Grounded
    (expand expand' : Expand)
    (comparison : Comparison)
    (e e' : Expr) : Prop where
  resolved :
    Mirrors comparison comparison.view.Same (resolve expand e)
      (resolve expand' e')
  given :
    ∀ name, e.givenName? = some name →
      ∀ schema schema', comparison.view.Same schema schema' →
        ∀ before before', comparison.related before before' →
          comparison.related (before.define name schema)
            (before'.define name schema')

variable {compiler : Compiler}
variable {expand expand' : Expand}
variable {comparison : Comparison}
variable {members members' : List Member}

------------------------------------------------------------
-- Members Of Object Literals
------------------------------------------------------------

/- Two expressions are `!!` of objects, or match no pattern of one. -/
theorem literal_or_plain
    {e e' : Expr}
    (hLike : comparison.like e e') :
    (∃ members members' inner inner' middle middle' note note',
      e = ⟨.unary .not ⟨.unary .not ⟨.object members, inner⟩, middle⟩,
        note⟩ ∧
      e' = ⟨.unary .not ⟨.unary .not ⟨.object members', inner'⟩, middle'⟩,
        note'⟩ ∧
      List.Forall₂ (Member.Like comparison.located comparison.like)
        members members') ∨
      (∀ members inner middle note,
        e = ⟨.unary .not ⟨.unary .not ⟨.object members, inner⟩, middle⟩,
          note⟩ → False) ∧
        ∀ members inner middle note,
          e' = ⟨.unary .not ⟨.unary .not ⟨.object members, inner⟩, middle⟩,
            note⟩ → False := by
  have hForm := comparison.form hLike
  rcases e with ⟨form, note⟩
  rcases e' with ⟨form', note'⟩
  cases hForm with
  | @unary op argument argument' hArgument =>
      have hForm := comparison.form hArgument
      rcases argument with ⟨form, middle⟩
      rcases argument' with ⟨form', middle'⟩
      cases hForm with
      | @unary op' operand operand' hOperand =>
          have hForm := comparison.form hOperand
          rcases operand with ⟨form, inner⟩
          rcases operand' with ⟨form', inner'⟩
          cases hForm with
          | object hMembers =>
              by_cases hOps : op = .not ∧ op' = .not
              · rcases hOps with ⟨rfl, rfl⟩
                exact .inl ⟨_, _, inner, inner', middle, middle', note,
                  note', rfl, rfl, hMembers⟩
              · refine .inr ⟨?_, ?_⟩ <;>
                  · rintro _ _ _ _ ⟨⟩
                    exact hOps ⟨rfl, rfl⟩
          | _ => exact .inr ⟨by simp, by simp⟩
      | _ => exact .inr ⟨by simp, by simp⟩
  | _ => exact .inr ⟨by simp, by simp⟩

theorem mirrors_spreadInto
    {argument argument' : Expr}
    (hLike : comparison.like argument argument')
    (hParts : AllPaired compiler expand expand' comparison argument.parts)
    {fields fields' : Fields}
    (hFields : comparison.view.SameFields fields fields') :
    Mirrors comparison comparison.view.SameFields
      (spreadInto compiler expand fields argument)
      (spreadInto compiler expand' fields' argument') := by
  rcases literal_or_plain hLike with
    ⟨members, members', inner, inner', middle, middle', note, note', rfl,
      rfl, hMembers⟩ | ⟨hOther, hOther'⟩
  · rw [spreadInto, spreadInto]
    have hWithin :
        AllPaired compiler expand expand' comparison
          (Member.partsOfAll members) := by
      refine hParts.mono fun part hPart => ?_
      simp [hPart]
    refine (mirrors_literalMembers hMembers hWithin rfl).bind ?_
    intro entries entries' hEntries
    exact .pure (hFields.applyAll (View.sameFields_iff.mp hEntries))
  · rw [spreadInto, spreadInto]
    · refine (hParts.self hLike).compiled.bind fun source source' hSource => ?_
      refine .check (hFields.merge comparison.fair ?_
        (comparison.place hLike))
      exact congrArg (fun schema => [schema]) hSource
    · exact hOther'
    · exact hOther

theorem respects_of_directive?
    (hRespects : compiler.Respects comparison.toLikeness)
    {name : String}
    {entry : String × Method}
    (hDirective : directive? compiler name = some entry) :
    entry.2.Respects comparison.toLikeness := by
  unfold directive? at hDirective
  split at hDirective
  · rcases Option.map_eq_some_iff.mp hDirective with
      ⟨method, hGet, rfl⟩
    exact hRespects.directives _ method hGet
  · cases hDirective

/- Two keys are patterns, or match no pattern of one. -/
theorem regex_or_plain
    {key key' : Key}
    (hKey : Key.Like comparison.like key key') :
    (∃ pattern flags,
      key = .regex pattern flags ∧ key' = .regex pattern flags) ∨
      (∀ pattern flags, key = .regex pattern flags → False) ∧
        ∀ pattern flags, key' = .regex pattern flags → False := by
  cases hKey with
  | regex pattern flags => exact .inl ⟨pattern, flags, rfl, rfl⟩
  | word hWord hWord' =>
      refine .inr ⟨?_, ?_⟩
      · rintro pattern flags rfl
        cases hWord
      · rintro pattern flags rfl
        cases hWord'
  | _ => exact .inr ⟨by simp, by simp⟩

theorem mirrors_propertyInto
    (hRespects : compiler.Respects comparison.toLikeness)
    {key key' : Key}
    (hKey : Key.Like comparison.like key key')
    (computed : Bool)
    {value value' : Expr}
    (hValue : comparison.like value value')
    (hParts : AllPaired compiler expand expand' comparison value.parts)
    {span span' : Span}
    (hSpan : comparison.located span span')
    {previous previous' : Option Member}
    {comments comments' : Comments}
    (hDescribes :
      comparison.view.Describes previous previous' comments comments')
    {fields fields' : Fields}
    (hFields : comparison.view.SameFields fields fields') :
    Mirrors comparison comparison.view.SameFields
      (propertyInto compiler expand previous fields key computed value
        span comments)
      (propertyInto compiler expand' previous' fields' key' computed value'
        span' comments') := by
  rcases regex_or_plain hKey with
    ⟨pattern, flags, rfl, rfl⟩ | ⟨hPlain, hPlain'⟩
  · rw [propertyInto, propertyInto]
    exact .pure hFields
  · rw [propertyInto, propertyInto]
    · refine .checked (Likeness.matches_propertyName hKey hSpan) ?_
      intro name _
      cases hDirective : directive? compiler name with
      | some entry =>
          have hSite :
              Call.Like comparison.toLikeness ⟨entry.1, [value], span⟩
                ⟨entry.1, [value'], span'⟩ :=
            ⟨rfl, .cons hValue .nil, hSpan⟩
          have hArgs :
              AllPaired compiler expand expand' comparison
                (Expr.partsOfAll
                  (Call.args ⟨entry.1, [value], span⟩)) := by
            simpa using hParts
          refine (mirrors_run hSite hArgs
            (respects_of_directive? hRespects hDirective)
            (View.same_object hFields)).bind ?_
          intro result result' hResult
          cases result with
          | object fields =>
              rcases hResult.exists_fields with ⟨fields', rfl, hFields⟩
              exact .pure hFields
          | _ =>
              cases result' with
              | object fields' =>
                  simp [View.Same, Schema.seen] at hResult
              | _ => exact .fail _ hSpan
      | none =>
          dsimp only
          rw [Likeness.isUndefined hValue]
          split
          · exact .pure
              ((hFields.toggleRequired name false).removeProperty name)
          · refine (hParts.self hValue).compiled.bind
              fun schema schema' hSchema => .pure ?_
            have hDescribed :=
              hDescribes _ _ _ _ (hFields.toggleRequired name !computed)
                hSchema
            exact hDescribed.1.insertProperty name hDescribed.2
    · exact hPlain'
    · exact hPlain

theorem mirrors_memberStep
    (hRespects : compiler.Respects comparison.toLikeness)
    {member member' : Member}
    (hMember : Member.Like comparison.located comparison.like member member')
    (hParts : AllPaired compiler expand expand' comparison member.parts)
    {previous previous' : Option Member}
    (hDescribes :
      comparison.view.Describes previous previous' member.comments
        member'.comments)
    {fields fields' : Fields}
    (hFields : comparison.view.SameFields fields fields') :
    Mirrors comparison comparison.view.SameFields
      (memberStep compiler expand previous fields member)
      (memberStep compiler expand' previous' fields' member') := by
  cases hMember with
  | property hKey computed hValue hSpan comments comments' =>
      rw [Member.parts, allPaired_append] at hParts
      exact mirrors_propertyInto hRespects hKey computed hValue hParts.2
        hSpan hDescribes hFields
  | spread hSpread =>
      rcases spread_or_plain hSpread with
        ⟨argument, argument', note, note', rfl, rfl, hArgument⟩ |
          ⟨hPlain, hPlain'⟩
      · refine mirrors_spreadInto hArgument (hParts.mono ?_) hFields
        intro part hPart
        simp [hPart]
      · rw [memberStep, memberStep, Likeness.kindName hSpread]
        · exact .fail _ (comparison.place hSpread)
        · exact hPlain'
        · exact hPlain

theorem mirrors_memberList
    (hRespects : compiler.Respects comparison.toLikeness)
    (hAll :
      List.Forall₂ (Member.Like comparison.located comparison.like)
        members members')
    (hParts :
      AllPaired compiler expand expand' comparison
        (Member.partsOfAll members))
    {previous previous' : Option Member}
    (hDescribes :
      comparison.view.DescribesAll previous previous' members members')
    {fields fields' : Fields}
    (hFields : comparison.view.SameFields fields fields') :
    Mirrors comparison comparison.view.SameFields
      (memberList compiler expand previous fields members)
      (memberList compiler expand' previous' fields' members') := by
  induction hAll generalizing previous previous' fields fields' with
  | nil =>
      rw [memberList, memberList]
      exact .pure hFields
  | cons hMember _ ih =>
      rw [Member.partsOfAll, allPaired_append] at hParts
      rw [memberList_cons, memberList_cons]
      refine (mirrors_memberStep hRespects hMember hParts.1 hDescribes.1
        hFields).bind ?_
      intro fields fields' hFields
      exact ih hParts.2 hDescribes.2 hFields

theorem mirrors_object
    (hRespects : compiler.Respects comparison.toLikeness)
    {note note' : Note}
    (hLike :
      comparison.like ⟨.object members, note⟩ ⟨.object members', note'⟩)
    (hAll :
      List.Forall₂ (Member.Like comparison.located comparison.like)
        members members')
    (hParts :
      AllPaired compiler expand expand' comparison
        (Member.partsOfAll members)) :
    Mirrors comparison comparison.view.Same
      (expr compiler expand ⟨.object members, note⟩)
      (expr compiler expand' ⟨.object members', note'⟩) := by
  rw [expr, expr]
  refine (mirrors_memberList hRespects hAll hParts
    (comparison.members hLike) rfl).bind fun fields fields' hFields => ?_
  simp only [pure_bind, Likeness.any_isPattern hAll]
  split
  · refine (mirrors_patternList hAll hParts rfl).bind
      fun patterns patterns' hPatterns => .pure ?_
    exact comparison.described hLike
      (View.same_object (hFields.addPatterns hPatterns))
  · exact .pure (comparison.described hLike (View.same_object hFields))

------------------------------------------------------------
-- Cases And Chains
------------------------------------------------------------

theorem mirrors_case
    {left left' right right' : Expr}
    (hLeft : comparison.like left left')
    (hRight : comparison.like right right')
    (hParts :
      AllPaired compiler expand expand' comparison
        (left.parts ++ right.parts)) :
    Mirrors comparison comparison.view.SameCase
      (case compiler expand left right)
      (case compiler expand' left' right') := by
  rw [allPaired_append] at hParts
  rw [case, case]
  refine (hParts.1.self hLeft).compiled.bind
    fun condition condition' hCondition => ?_
  refine (mirrors_spreadInto hLeft hParts.1 rfl).bind
    fun fields fields' hFields => ?_
  refine (mirrors_spreadInto hRight hParts.2 hFields).bind
    fun fields fields' hFields => ?_
  exact .pure ⟨hCondition.setKey _ rfl, View.same_object hFields⟩

theorem mirrors_cases
    {es es' : List Expr}
    (hAll : List.Forall₂ comparison.like es es')
    (hParts :
      AllPaired compiler expand expand' comparison
        (Expr.partsOfAll es)) :
    Mirrors comparison (List.Forall₂ comparison.view.SameCase)
      (cases compiler expand es) (cases compiler expand' es') := by
  induction hAll with
  | nil =>
      rw [cases, cases]
      exact .pure .nil
  | @cons e e' rest rest' hLike _ ih =>
      rw [Expr.partsOfAll, allPaired_append] at hParts
      have hForm := comparison.form hLike
      rcases e with ⟨form, note⟩
      rcases e' with ⟨form', note'⟩
      cases hForm with
      | binary op hLeft hRight =>
          rw [cases, cases]
          refine (mirrors_case hLeft hRight
            (hParts.1.mono (List.subset_cons_self _ _))).bind
              fun first first' hFirst => ?_
          refine (ih hParts.2).bind fun more more' hMore => ?_
          exact .pure (.cons hFirst hMore)
      | _ =>
          rw [cases, cases]
          · exact ih hParts.2
          all_goals simp

theorem mirrors_logical
    {op : LogicalOp}
    {left left' right right' : Expr}
    {note note' : Note}
    (hLike :
      comparison.like ⟨.logical op left right, note⟩
        ⟨.logical op left' right', note'⟩)
    (hParts :
      AllPaired compiler expand expand' comparison
        (Form.logical op left right).parts) :
    Mirrors comparison comparison.view.Same
      (expr compiler expand ⟨.logical op left right, note⟩)
      (expr compiler expand' ⟨.logical op left' right', note'⟩) := by
  have hFault := Likeness.fault? op hLike
  have hLeaves := Likeness.leaves hLike
  have hWithin :
      AllPaired compiler expand expand' comparison
        (Expr.partsOfAll
          (Chain.leaves ⟨.logical op left right, note⟩)) :=
    hParts.mono (Chain.partsOfAll_leaves_subset op left right note)
  have hConstants :
      Option.Rel (List.Forall₂ Chain.Constant.Like)
        (if op = .or then
          Chain.constants? (Chain.leaves ⟨.logical op left right, note⟩)
        else none)
        (if op = .or then
          Chain.constants?
            (Chain.leaves ⟨.logical op left' right', note'⟩)
        else none) := by
    split
    · exact Likeness.constants? hLeaves
    · exact .none
  rw [expr, expr]
  generalize Chain.fault? op ⟨.logical op left right, note⟩ =
    fault at hFault ⊢
  generalize Chain.fault? op ⟨.logical op left' right', note'⟩ =
    fault' at hFault ⊢
  cases hFault with
  | some hError => exact mirrors_throw hError
  | none =>
      dsimp only
      rw [Likeness.all_isCase hLeaves]
      split
      · exact (mirrors_cases hLeaves hWithin).bind
          fun cases cases' hCases => .pure (View.same_switch hCases)
      · generalize (if op = .or then _ else none) = constants
          at hConstants ⊢
        generalize (if op = .or then _ else none) = constants'
          at hConstants ⊢
        cases hConstants with
        | some hConstants =>
            refine .pure ?_
            rw [Chain.enumeration_eq hConstants]
            exact .refl _
        | none =>
            refine (mirrors_all hLeaves hWithin).bind
              fun branches branches' hBranches => .pure ?_
            exact View.same_of
              (View.SamePairs.cons rfl _ (View.same_array hBranches))

------------------------------------------------------------
-- Expressions
------------------------------------------------------------

theorem mirrors_binary
    {op : BinaryOp}
    {left left' right right' : Expr}
    {note note' : Note}
    (hLike :
      comparison.like ⟨.binary op left right, note⟩
        ⟨.binary op left' right', note'⟩)
    (hLeft : comparison.like left left')
    (hRight : comparison.like right right')
    (hGround :
      Grounded expand expand' comparison ⟨.binary op left right, note⟩
        ⟨.binary op left' right', note'⟩)
    (hParts :
      AllPaired compiler expand expand' comparison
        (Form.binary op left right).parts) :
    Mirrors comparison comparison.view.Same
      (expr compiler expand ⟨.binary op left right, note⟩)
      (expr compiler expand' ⟨.binary op left' right', note'⟩) := by
  by_cases hShift : op = .shr
  · subst hShift
    rw [expr, expr]
    refine (mirrors_case hLeft hRight hParts).bind
      fun parts parts' hCase => .pure ?_
    exact View.same_of (View.SamePairs.cons
      (View.SamePairs.cons rfl _ hCase.2) _ hCase.1)
  · have hRange := Likeness.limited? hLike
    have hOperand :=
      fun range (hRange : Limited.of? ⟨.binary op left right, note⟩ =
          some range) =>
        hParts range.operand (Limited.operand_mem_parts hRange)
    rw [expr_binary hShift, expr_binary hShift]
    generalize Limited.of? ⟨.binary op left right, note⟩ = range
      at hRange hOperand ⊢
    generalize Limited.of? ⟨.binary op left' right', note'⟩ = range'
      at hRange ⊢
    cases hRange with
    | some hRange =>
        refine (hOperand _ rfl _ hRange.operand).compiled.bind
          fun schema schema' hSchema => .pure ?_
        exact hRange.apply hSchema
    | none => exact hGround.resolved

/- The constant of a number, or else a failure. -/
theorem mirrors_number
    {e e' : Expr}
    (hLike : comparison.like e e') :
    Mirrors comparison comparison.view.Same
      (match e.number? with
        | some value => pure (constant (.ofBinary64 value))
        | none => fail (.unknownForm e.kindName) e.span)
      (match e'.number? with
        | some value => pure (constant (.ofBinary64 value))
        | none => fail (.unknownForm e'.kindName) e'.span) := by
  rcases Likeness.number_cases hLike with
    ⟨hNone, hNone'⟩ | ⟨value, value', hSome, hSome', hValue⟩
  · rw [hNone, hNone', Likeness.kindName hLike]
    exact .fail _ (comparison.place hLike)
  · rw [hSome, hSome']
    dsimp only
    rw [hValue]
    exact .pure rfl

theorem mirrors_unary
    {op : UnaryOp}
    {argument argument' : Expr}
    {note note' : Note}
    (hLike :
      comparison.like ⟨.unary op argument, note⟩
        ⟨.unary op argument', note'⟩)
    (hArgument : comparison.like argument argument')
    (hParts :
      AllPaired compiler expand expand' comparison argument.parts) :
    Mirrors comparison comparison.view.Same
      (expr compiler expand ⟨.unary op argument, note⟩)
      (expr compiler expand' ⟨.unary op argument', note'⟩) := by
  by_cases hNot : op = .not
  · subst hNot
    have hForm := comparison.form hArgument
    rcases argument with ⟨form, middle⟩
    rcases argument' with ⟨form', middle'⟩
    cases hForm with
    | @unary op operand operand' hOperand =>
        cases op with
        | not =>
            have hForm := comparison.form hOperand
            have hKind := Likeness.kindName hOperand
            have hPlace := comparison.place hOperand
            rcases operand with ⟨form, inner⟩
            rcases operand' with ⟨form', inner'⟩
            have hWithin :
                AllPaired compiler expand expand' comparison
                  form.parts := by
              refine hParts.mono fun part hPart => ?_
              simp [hPart]
            cases hForm with
            | object hMembers =>
                rw [expr, expr]
                exact (mirrors_literalMembers hMembers hWithin rfl).bind
                  fun fields fields' hFields =>
                    .pure (View.same_object hFields)
            | array hElements =>
                rw [expr, expr]
                exact mirrors_array hElements hWithin true
            | _ =>
                rw [expr, expr, hKind]
                · exact .fail _ hPlace
                all_goals simp
        | _ =>
            rw [expr, expr]
            · exact .fail _ (comparison.place hLike)
            all_goals simp
    | _ =>
        rw [expr, expr]
        · exact .fail _ (comparison.place hLike)
        all_goals simp
  · rw [expr, expr]
    · exact mirrors_number hLike
    all_goals simp_all

/- A schema is named alike, if its name keeps names related. -/
theorem mirrors_register
    {e e' : Expr}
    (hLike : comparison.like e e')
    {name : String}
    (hGiven :
      ∀ schema schema', comparison.view.Same schema schema' →
        ∀ before before', comparison.related before before' →
          comparison.related (before.define name schema)
            (before'.define name schema'))
    {schema schema' : Schema}
    (hSchema : comparison.view.Same schema schema') :
    Mirrors comparison comparison.view.Same
      (register name e.comments.preferred schema)
      (register name e'.comments.preferred schema') := by
  have hNamed := comparison.described hLike (hSchema.titled name)
  exact (Mirrors.define rfl (hGiven _ _ hNamed)).bind
    fun _ _ _ => .pure hNamed

/- Two expressions are compiled alike if what is within them is. -/
theorem compiled_of_parts
    (hRespects : compiler.Respects comparison.toLikeness)
    {e e' : Expr}
    (hLike : comparison.like e e')
    (hGround : Grounded expand expand' comparison e e')
    (hParts :
      AllPaired compiler expand expand' comparison e.form.parts) :
    Mirrors comparison comparison.view.Same (expr compiler expand e)
      (expr compiler expand' e') := by
  have hForm := comparison.form hLike
  have hPlace := comparison.place hLike
  rcases e with ⟨form, note⟩
  rcases e' with ⟨form', note'⟩
  cases hForm with
  | assignment op hTarget hValue =>
      rw [Expr.form, Form.parts, allPaired_append] at hParts
      cases op with
      | assign =>
          rw [expr, expr]
          refine .checked
            (Likeness.matches_referenceName _ _ hTarget) ?_
          intro name hName
          refine (hParts.2.self hValue).compiled.bind
            fun schema schema' hSchema => ?_
          refine mirrors_register hLike (hGround.given name ?_) hSchema
          rw [Expr.givenName?, hName]
          rfl
      | compound op =>
          rw [expr, expr]
          exact .fail _ hPlace
  | binary op hLeft hRight =>
      exact mirrors_binary hLike hLeft hRight hGround hParts
  | logical op hLeft hRight => exact mirrors_logical hLike hParts
  | unary op hArgument => exact mirrors_unary hLike hArgument hParts
  | identifier name =>
      rw [expr, expr]
      exact hGround.resolved
  | member hObject hProperty computed =>
      rw [expr, expr]
      exact hGround.resolved
  | object hMembers => exact mirrors_object hRespects hLike hMembers hParts
  | array hElements =>
      rw [expr, expr]
      exact mirrors_array hElements hParts false
  | number hValue =>
      rw [expr, expr]
      · exact mirrors_number hLike
      all_goals simp
  | string value =>
      rw [expr, expr]
      exact .pure rfl
  | boolean value =>
      rw [expr, expr]
      exact .pure rfl
  | null =>
      rw [expr, expr]
      exact hGround.resolved
  | regex pattern flags =>
      rw [expr, expr]
      exact .pure rfl
  | call hCallee hArguments =>
      rw [expr, expr]
      exact mirrors_call hRespects hLike hParts
  | arrow hParams hBody =>
      rw [Expr.form, Form.parts, allPaired_append] at hParts
      have hCompiled := (hParts.2.self hBody).compiled
      cases hParams with
      | nil =>
          rw [expr, expr]
          · exact hCompiled
          all_goals simp
      | cons hParam hOthers =>
          cases hOthers with
          | nil =>
              rw [expr, expr]
              refine .checked
                (Likeness.matches_referenceName _ _ hParam) ?_
              intro name hName
              refine hCompiled.bind fun schema schema' hSchema => ?_
              refine mirrors_register hLike (hGround.given name ?_) hSchema
              rw [Expr.givenName?, hName]
              rfl
          | cons _ _ =>
              rw [expr, expr]
              · exact hCompiled
              all_goals simp
  | conditional hTest hConsequent hAlternate =>
      rw [Expr.form, Form.parts, allPaired_append,
        allPaired_append] at hParts
      rw [expr, expr]
      refine (hParts.1.self hTest).compiled.bind
        fun first first' hFirst => ?_
      refine (hParts.2.1.self hConsequent).compiled.bind
        fun second second' hSecond => ?_
      refine (hParts.2.2.self hAlternate).compiled.bind
        fun third third' hThird => .pure ?_
      exact View.same_of (View.SamePairs.cons
        (View.SamePairs.cons (View.SamePairs.cons rfl _ hThird) _
          hSecond) _ hFirst)
  | spread hArgument =>
      rw [expr, expr]
      · exact .fail _ hPlace
      all_goals simp

/- Two expressions are taken as written alike if their parts are. -/
theorem written_of_parts
    (hRespects : compiler.Respects comparison.toLikeness)
    {e e' : Expr}
    (hLike : comparison.like e e')
    (hGround : Grounded expand expand' comparison e e')
    (hParts :
      AllPaired compiler expand expand' comparison e.form.parts) :
    Mirrors comparison comparison.view.Same (literal compiler expand e)
      (literal compiler expand' e') := by
  have hResolved := hGround.resolved
  have hForm := comparison.form hLike
  have hPlace := comparison.place hLike
  rw [literal.eq_def compiler expand e,
    literal.eq_def compiler expand' e', Likeness.isUndefined hLike]
  by_cases hUndefined : e'.isUndefined = true
  · rw [if_pos hUndefined, if_pos hUndefined]
    exact .pure (congrArg Schema.removal (comparison.removals hPlace))
  rw [if_neg hUndefined, if_neg hUndefined]
  rcases Likeness.number_cases hLike with
    ⟨hNone, hNone'⟩ | ⟨value, value', hSome, hSome', hValue⟩
  · rw [hNone, hNone']
    rcases e with ⟨form, note⟩
    rcases e' with ⟨form', note'⟩
    cases hForm with
    | object hMembers =>
        exact (mirrors_literalMembers hMembers hParts rfl).bind
          fun fields fields' hFields => .pure (View.same_object hFields)
    | array hElements =>
        exact (mirrors_literalAll hElements hParts).bind
          fun items items' hItems => .pure (View.same_array hItems)
    | string value => exact .pure rfl
    | boolean value => exact .pure rfl
    | null => exact .pure rfl
    | identifier name => exact hResolved
    | member hObject hProperty computed => exact hResolved
    | binary op hLeft hRight => exact hResolved
    | call hCallee hArguments => exact mirrors_call hRespects hLike hParts
    | _ => exact .fail _ hPlace
  · rw [hSome, hSome']
    dsimp only
    rw [hValue]
    exact .pure rfl

/-
  Two expressions are paired, if the names within them are resolved
  alike and those given within them keep names related. The induction
  is on the parts of the first expression.
-/
theorem paired_of_grounded
    (hRespects : compiler.Respects comparison.toLikeness)
    {e e' : Expr}
    (hLike : comparison.like e e')
    (hGround :
      ∀ part ∈ e.parts, ∀ part', comparison.like part part' →
        Grounded expand expand' comparison part part') :
    Paired compiler expand expand' comparison e e' := by
  have hPasses :
      Expr.Passes
        (fun part => ∀ part', comparison.like part part' →
          Grounded expand expand' comparison part part')
        (fun part => ∀ part', comparison.like part part' →
          Paired compiler expand expand' comparison part part') := by
    intro part hGround hParts part' hLike
    have hHere := hGround part' hLike
    exact ⟨compiled_of_parts hRespects hLike hHere hParts,
      written_of_parts hRespects hLike hHere hParts⟩
  exact e.forall_mem_parts hPasses hGround e e.self_mem_parts e' hLike

end Compile

end SchemaLang
