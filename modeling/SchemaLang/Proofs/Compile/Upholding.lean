import SchemaLang.Compile.Declared
import SchemaLang.Proofs.Compile.Upheld

/-
  Compiling keeps to a standard, wherever the operations that are run
  do so and names stand for what does.

  Main declarations:
    * `Compile.compiled_of_upheld` and `Compile.written_of_upheld`
    * `Compile.upheld_of_resolved`
    * `Registry.Keeps` and `Registry.keeps_initial`
    * `Compile.upheld_of_keeps`
-/

namespace SchemaLang

namespace Compile

variable {standard : Standard}
variable {compiler : Compiler}
variable {expand : Expand}
variable {fits : Registry → Prop}
variable {es : List Expr}
variable {members : List Member}

------------------------------------------------------------
-- Members Of Object Literals
------------------------------------------------------------

/- An expression is `!!` of an object, or matches no pattern of one. -/
theorem literal_or_other
    (e : Expr) :
    (∃ members inner middle note,
      e = ⟨.unary .not ⟨.unary .not ⟨.object members, inner⟩, middle⟩,
        note⟩) ∨
      ∀ members inner middle note,
        e = ⟨.unary .not ⟨.unary .not ⟨.object members, inner⟩, middle⟩,
          note⟩ → False := by
  by_cases hLiteral :
      ∃ members inner middle note,
        e = ⟨.unary .not ⟨.unary .not ⟨.object members, inner⟩, middle⟩,
          note⟩
  · exact .inl hLiteral
  · refine .inr fun members inner middle note hSame => ?_
    exact hLiteral ⟨members, inner, middle, note, hSame⟩

/- The result is sound, and leads as far as nothing is against it. -/
theorem ensures_spreadInto
    {argument : Expr}
    (hParts : AllUpheld standard compiler expand fits argument.parts)
    {fields : Fields}
    (hFields : standard.SoundFields fields) :
    Ensures fits
      (fun merged => standard.SoundFields merged ∧
        (standard.descriptions = false → standard.Leads fields.keys →
          standard.Leads merged.keys))
      (spreadInto compiler expand fields argument) := by
  rcases literal_or_other argument with
    ⟨members, inner, middle, note, rfl⟩ | hOther
  · rcases hParts.self.admitted with ⟨hRemovals, hTitles, hDescriptions⟩
    have hWithin :
        AllUpheld standard compiler expand fits
          (Member.partsOfAll members) := by
      refine hParts.mono fun part hPart => ?_
      simp [hPart]
    rw [spreadInto]
    refine (ensures_literalMembers hWithin).bind fun entries hEntries => ?_
    have hApplied :=
      (Standard.sound_object.mpr hFields).met hTitles hDescriptions
        |>.setKeys (fun entry _ =>
          Standard.leading_of_lenient hTitles hDescriptions entry.1)
        (hEntries hRemovals)
    have hMet := Standard.met_object.mp hApplied
    exact .pure ⟨hMet.sound, fun _ _ => hMet.leads⟩
  · rw [spreadInto]
    · refine hParts.self.compiled.bind fun source hSource => ?_
      refine .check fun merged hMerges => ⟨?_, ?_⟩
      · exact hFields.merge
          (List.forall_mem_singleton.mpr hSource.sound) hMerges
      · intro hDescriptions hLeads
        exact hLeads.merge hDescriptions hMerges
    · exact hOther

theorem ensures_ordinaryInto
    {value : Expr}
    (hParts : AllUpheld standard compiler expand fits value.parts)
    (previous : Option Member)
    (name : String)
    (computed : Bool)
    (comments : Comments)
    {fields : Fields}
    (hFields : standard.MetFields fields) :
    Ensures fits standard.MetFields
      (ordinaryInto compiler expand previous fields name computed value
        comments) := by
  unfold ordinaryInto
  split
  · exact .pure ((hFields.toggleRequired name false).removeProperty name)
  · refine hParts.self.compiled.bind fun schema hSchema => .pure ?_
    have hDescribed :=
      (hFields.toggleRequired name !computed).describe hSchema.sound
        comments previous
    exact hDescribed.1.insertProperty name hDescribed.2

theorem ensures_propertyInto
    {key : Key}
    {computed : Bool}
    {value : Expr}
    {span : Span}
    {comments : Comments}
    (hAdmits :
      standard.AdmitsMember compiler
        (.property key computed value span comments))
    (hParts : AllUpheld standard compiler expand fits value.parts)
    (previous : Option Member)
    {fields : Fields}
    (hFields : standard.MetFields fields) :
    Ensures fits standard.MetFields
      (propertyInto compiler expand previous fields key computed value
        span comments) := by
  rcases key.pattern_or_word with
    ⟨pattern, flags, rfl⟩ | ⟨name, hWord⟩ | hNameless
  · rw [propertyInto_pattern]
    exact .pure hFields
  · cases hDirective : directive? compiler name with
    | none =>
        rw [propertyInto_ordinary hWord hDirective]
        exact ensures_ordinaryInto hParts previous name computed comments
          hFields
    | some entry =>
        have hMethod := hAdmits name entry hWord hDirective
        have hArgs :
            AllUpheld standard compiler expand fits
              (Expr.partsOfAll [value]) := by
          simpa using hParts
        rw [propertyInto_directive hWord hDirective]
        refine (ensures_run ⟨entry.1, [value], span⟩ hArgs hMethod
          (Standard.met_object.mpr hFields)).bind fun result hResult => ?_
        cases result with
        | object fields => exact .pure (Standard.met_object.mp hResult)
        | _ => exact .fail _ _
  · rcases hNameless span with ⟨error, hError⟩
    rw [propertyInto_nameless hError]
    exact .throw error

theorem ensures_memberStep
    {member : Member}
    (hAdmits : standard.AdmitsMember compiler member)
    (hParts : AllUpheld standard compiler expand fits member.parts)
    (previous : Option Member)
    {fields : Fields}
    (hFields : standard.MetFields fields) :
    Ensures fits standard.MetFields
      (memberStep compiler expand previous fields member) := by
  cases member with
  | property key computed value span comments =>
      rw [Member.parts, allUpheld_append] at hParts
      exact ensures_propertyInto hAdmits hParts.2 previous hFields
  | spread e =>
      rcases spread_or_other e with ⟨argument, note, rfl⟩ | hPlain
      · refine (ensures_spreadInto (AllUpheld.argument hParts)
          hFields.sound).mono fun merged hMerged => ?_
        exact ⟨hMerged.1, hMerged.2 hAdmits hFields.leads⟩
      · rw [memberStep]
        · exact .fail _ _
        · exact hPlain

theorem ensures_memberList
    (hAdmits :
      ∀ member ∈ members, standard.AdmitsMember compiler member)
    (hParts :
      AllUpheld standard compiler expand fits
        (Member.partsOfAll members))
    (previous : Option Member)
    {fields : Fields}
    (hFields : standard.MetFields fields) :
    Ensures fits standard.MetFields
      (memberList compiler expand previous fields members) := by
  induction members generalizing previous fields with
  | nil =>
      rw [memberList]
      exact .pure hFields
  | cons member rest ih =>
      rw [Member.partsOfAll, allUpheld_append] at hParts
      rw [List.forall_mem_cons] at hAdmits
      rw [memberList_cons]
      refine (ensures_memberStep hAdmits.1 hParts.1 previous hFields).bind ?_
      intro fields hFields
      exact ih hAdmits.2 hParts.2 (some member) hFields

theorem ensures_object
    {note : Note}
    (hAdmits : standard.Admits compiler ⟨.object members, note⟩)
    (hParts :
      AllUpheld standard compiler expand fits
        (Member.partsOfAll members)) :
    Ensures fits standard.Met
      (expr compiler expand ⟨.object members, note⟩) := by
  rw [expr]
  refine (ensures_memberList hAdmits hParts none .skeleton).bind
    fun fields hFields => ?_
  simp only [pure_bind]
  split
  · refine (ensures_patternList hParts).bind
      fun patterns hPatterns => .pure ?_
    exact (Standard.met_object.mpr
      (hFields.addPatterns hPatterns)).describe _
  · exact .pure ((Standard.met_object.mpr hFields).describe _)

------------------------------------------------------------
-- Cases And Chains
------------------------------------------------------------

/- Both sides of a case are sound. -/
def SoundCase
    (standard : Standard)
    (case : Schema × Schema) : Prop :=
  standard.Sound case.1 ∧ standard.Sound case.2

theorem ensures_case
    {left right : Expr}
    (hParts :
      AllUpheld standard compiler expand fits
        (left.parts ++ right.parts)) :
    Ensures fits (SoundCase standard)
      (case compiler expand left right) := by
  rw [allUpheld_append] at hParts
  rw [case]
  refine hParts.1.self.compiled.bind fun condition hCondition => ?_
  refine (ensures_spreadInto hParts.1
    Standard.MetFields.skeleton.sound).bind fun fields hFields => ?_
  refine (ensures_spreadInto hParts.2 hFields.1).bind
    fun fields hFields => .pure ⟨?_, ?_⟩
  · have hFlag : standard.Sound (.bool true) := trivial
    exact (hCondition.setKey (Standard.leading_of_not_naming rfl)
      hFlag).sound
  · exact Standard.sound_object.mpr hFields.1

theorem ensures_cases
    (hParts :
      AllUpheld standard compiler expand fits (Expr.partsOfAll es)) :
    Ensures fits (fun cases => ∀ case ∈ cases, SoundCase standard case)
      (cases compiler expand es) := by
  induction es with
  | nil =>
      rw [cases]
      exact .pure (by simp)
  | cons e rest ih =>
      rw [Expr.partsOfAll, allUpheld_append] at hParts
      rcases e with ⟨form, note⟩
      cases form with
      | binary op left right =>
          rw [cases]
          refine (ensures_case
            (hParts.1.mono (List.subset_cons_self _ _))).bind
              fun first hFirst => ?_
          refine (ih hParts.2).bind fun more hMore => .pure ?_
          exact List.forall_mem_cons.mpr ⟨hFirst, hMore⟩
      | _ =>
          rw [cases]
          · exact ih hParts.2
          all_goals simp

/- The last branch is the same all the way up, so it is proved first. -/
theorem met_switch
    {cases : List (Schema × Schema)}
    (hCases : ∀ case ∈ cases, SoundCase standard case) :
    standard.Met (Chain.switch cases) := by
  have hLast :
      standard.Met
        (.object (.single "oneOf" (.array (cases.map Prod.fst)))) := by
    apply Standard.met_of_keys ["oneOf"] rfl (by decide)
    rw [Standard.soundFields_of]
    refine List.forall_mem_singleton.mpr (Standard.sound_array.mpr ?_)
    intro condition hCondition
    rcases List.mem_map.mp hCondition with ⟨case, hCase, rfl⟩
    exact (hCases case hCase).1
  unfold Chain.switch
  dsimp only
  generalize Schema.object (.single "oneOf" (.array (cases.map Prod.fst))) =
    last at hLast ⊢
  induction cases with
  | nil => exact hLast
  | cons case rest ih =>
      rw [List.forall_mem_cons] at hCases
      apply Standard.met_of_keys ["if", "then", "else"] rfl (by decide)
      simp only [Standard.soundFields_of, List.forall_mem_cons,
        List.not_mem_nil, false_implies, implies_true, and_true]
      exact ⟨hCases.1.1, hCases.1.2, (ih hCases.2).sound⟩

/- The values of all groups are sound. -/
def SoundGroups
    (standard : Standard)
    (groups : List (Chain.Group × List Schema)) : Prop :=
  ∀ group ∈ groups, ∀ value ∈ group.2, standard.Sound value

theorem SoundGroups.addTo
    {groups : List (Chain.Group × List Schema)}
    (hGroups : SoundGroups standard groups)
    (group : Chain.Group)
    {value : Schema}
    (hValue : standard.Sound value) :
    SoundGroups standard (Chain.addTo group value groups) := by
  fun_induction Chain.addTo group value groups with
  | case1 => simpa [SoundGroups] using hValue
  | case2 values rest =>
      simp only [SoundGroups, List.forall_mem_cons] at hGroups ⊢
      refine ⟨?_, hGroups.2⟩
      exact List.forall_mem_append.mpr
        ⟨hGroups.1, List.forall_mem_singleton.mpr hValue⟩
  | case3 other values rest hOther ih =>
      simp only [SoundGroups, List.forall_mem_cons] at hGroups ih ⊢
      exact ⟨hGroups.1, ih hGroups.2⟩

theorem soundGroups_groups
    (constants : List Chain.Constant) :
    SoundGroups standard (Chain.groups constants) := by
  have hEntries :
      ∀ entry ∈ constants.filterMap Chain.Constant.grouped?,
        standard.Sound entry.2 := by
    intro entry hEntry
    rcases List.mem_filterMap.mp hEntry with ⟨constant, -, hGrouped⟩
    cases constant with
    | string value =>
        cases hGrouped
        trivial
    | number value =>
        cases hGrouped
        exact Standard.sound_ofBinary64 value
    | null => cases hGrouped
  unfold Chain.groups
  have hStart : SoundGroups standard [] := by simp [SoundGroups]
  generalize ([] : List (Chain.Group × List Schema)) = groups
    at hStart ⊢
  generalize constants.filterMap Chain.Constant.grouped? = entries
    at hEntries ⊢
  induction entries generalizing groups with
  | nil => exact hStart
  | cons entry rest ih =>
      rw [List.forall_mem_cons] at hEntries
      exact ih _ (hStart.addTo entry.1 hEntries.1) hEntries.2

theorem met_nullSchema :
    standard.Met Chain.nullSchema := by
  apply Standard.met_of_keys ["type"] rfl (by decide)
  simp [Standard.Sound]

theorem met_groupSchema
    {group : Chain.Group × List Schema}
    (hGroup : ∀ value ∈ group.2, standard.Sound value) :
    standard.Met (Chain.groupSchema group) := by
  apply Standard.met_of_keys ["type", "enum"] rfl (by decide)
  simpa [Standard.Sound, Standard.soundItems_iff] using hGroup

theorem met_constant
    {value : Schema}
    (hValue : standard.Sound value) :
    standard.Met (constant value) := by
  apply Standard.met_of_keys ["const"] rfl (by decide)
  rw [Standard.soundFields_of]
  exact List.forall_mem_singleton.mpr hValue

theorem met_branch
    {group : Chain.Group × List Schema}
    (hGroup : ∀ value ∈ group.2, standard.Sound value) :
    standard.Met (Chain.branch group) := by
  unfold Chain.branch
  split
  · rename_i value hOne
    rw [hOne] at hGroup
    exact met_constant (hGroup value (List.mem_singleton_self value))
  · exact met_groupSchema hGroup

theorem met_enumeration
    (constants : List Chain.Constant) :
    standard.Met (Chain.enumeration constants) := by
  have hGroups : SoundGroups standard (Chain.groups constants) :=
    soundGroups_groups constants
  unfold Chain.enumeration
  dsimp only
  generalize Chain.groups constants = groups at hGroups ⊢
  split
  · exact met_nullSchema
  · exact met_groupSchema (hGroups _ (List.mem_singleton_self _))
  · apply Standard.met_of_keys ["anyOf"] rfl (by decide)
    refine List.forall_mem_singleton.mpr (Standard.sound_array.mpr ?_)
    refine List.forall_mem_append.mpr ⟨?_, ?_⟩
    · intro branch hBranch
      rcases List.mem_map.mp hBranch with ⟨group, hGroup, rfl⟩
      exact (met_branch (hGroups group hGroup)).sound
    · intro last hLast
      split at hLast
      · rw [List.mem_singleton.mp hLast]
        exact met_nullSchema.sound
      · cases hLast

theorem ensures_logical
    {op : LogicalOp}
    {left right : Expr}
    {note : Note}
    (hParts :
      AllUpheld standard compiler expand fits
        (Form.logical op left right).parts) :
    Ensures fits standard.Met
      (expr compiler expand ⟨.logical op left right, note⟩) := by
  have hWithin :
      AllUpheld standard compiler expand fits
        (Expr.partsOfAll
          (Chain.leaves ⟨.logical op left right, note⟩)) :=
    hParts.mono (Chain.partsOfAll_leaves_subset op left right note)
  rw [expr]
  cases Chain.fault? op ⟨.logical op left right, note⟩ with
  | some error => exact .throw error
  | none =>
      dsimp only
      split
      · exact (ensures_cases hWithin).bind
          fun cases hCases => .pure (met_switch hCases)
      · split
        · rename_i constants hConstants
          exact .pure (met_enumeration constants)
        · refine (ensures_all hWithin).bind
            fun branches hBranches => .pure ?_
          apply Standard.met_of_keys [Chain.branchKey op] rfl
          · cases op <;> decide
          · exact List.forall_mem_singleton.mpr
              (Standard.sound_array.mpr hBranches)

------------------------------------------------------------
-- Expressions
------------------------------------------------------------

/- The keys of limits are no names. -/
theorem isNaming_limits
    {e : Expr}
    {range : Limited}
    (hRange : Limited.of? e = some range) :
    ∀ limit ∈ range.limits, Schema.isNaming limit.1 = false := by
  have hLower : ∀ op, Schema.isNaming (Limited.lowerKey op) = false := by
    intro op
    cases op <;> rfl
  have hLimit : ∀ op, Schema.isNaming (Limited.limitKey op) = false := by
    intro op
    cases op <;> rfl
  cases Limited.written_of_of? hRange with
  | between => simp [hLower, hLimit]
  | bound => simp [hLimit]

theorem met_limited
    {limits : List (String × Binary64)}
    (hKeys : ∀ limit ∈ limits, Schema.isNaming limit.1 = false)
    {schema : Schema}
    (hSchema : standard.Met schema)
    (operand : Expr) :
    standard.Met (Limited.apply ⟨operand, limits⟩ schema) := by
  unfold Limited.apply
  dsimp only
  induction limits generalizing schema with
  | nil => exact hSchema
  | cons limit rest ih =>
      rw [List.forall_mem_cons] at hKeys
      exact ih hKeys.2 (hSchema.setKey
        (Standard.leading_of_not_naming hKeys.1)
        (Standard.sound_ofBinary64 limit.2))

theorem ensures_binary
    {op : BinaryOp}
    {left right : Expr}
    {note : Note}
    (hResolved :
      Ensures fits standard.Met
        (resolve expand ⟨.binary op left right, note⟩))
    (hParts :
      AllUpheld standard compiler expand fits
        (Form.binary op left right).parts) :
    Ensures fits standard.Met
      (expr compiler expand ⟨.binary op left right, note⟩) := by
  by_cases hShift : op = .shr
  · subst hShift
    rw [expr]
    refine (ensures_case hParts).bind fun parts hCase => .pure ?_
    apply Standard.met_of_keys ["if", "then"] rfl (by decide)
    simpa [SoundCase] using hCase
  · rw [expr_binary hShift]
    split
    · rename_i range hRange
      have hOperand := hParts range.operand
        (Limited.operand_mem_parts hRange)
      refine hOperand.compiled.bind fun schema hSchema => .pure ?_
      exact met_limited (isNaming_limits hRange) hSchema range.operand
    · exact hResolved

/- The constant of a number, or else a failure. -/
theorem ensures_number
    (e : Expr) :
    Ensures fits standard.Met
      (match e.number? with
        | some value => pure (constant (.ofBinary64 value))
        | none => fail (.unknownForm e.kindName) e.span) := by
  split
  · exact .pure (met_constant (Standard.sound_ofBinary64 _))
  · exact .fail _ _

theorem ensures_unary
    {op : UnaryOp}
    {argument : Expr}
    {note : Note}
    (hAdmits : standard.Admits compiler ⟨.unary op argument, note⟩)
    (hParts :
      AllUpheld standard compiler expand fits argument.parts) :
    Ensures fits standard.Met
      (expr compiler expand ⟨.unary op argument, note⟩) := by
  by_cases hNot : op = .not
  · subst hNot
    rcases argument with ⟨form, middle⟩
    cases form with
    | unary op operand =>
        cases op with
        | not =>
            rcases operand with ⟨form, inner⟩
            have hWithin :
                AllUpheld standard compiler expand fits form.parts := by
              refine hParts.mono fun part hPart => ?_
              simp [hPart]
            cases form with
            | object members =>
                rcases hAdmits with ⟨hRemovals, hTitles, hDescriptions⟩
                rw [expr]
                refine (ensures_literalMembers hWithin).bind
                  fun fields hFields => .pure ?_
                exact (Standard.sound_object.mpr (hFields hRemovals)).met
                  hTitles hDescriptions
            | array elements =>
                rw [expr]
                exact ensures_array hWithin true
            | _ =>
                rw [expr]
                · exact .fail _ _
                all_goals simp
        | _ =>
            rw [expr]
            · exact .fail _ _
            all_goals simp
    | _ =>
        rw [expr]
        · exact .fail _ _
        all_goals simp
  · rw [expr]
    · exact ensures_number _
    all_goals simp_all

theorem met_titled
    {schema : Schema}
    (hSchema : standard.Met schema)
    (name : String) :
    standard.Met (titled name schema) := by
  unfold titled
  split
  · exact hSchema
  · exact hSchema.setTitle name

/- Names may stand for schemas that are up to a standard. -/
def TakesMet
    (standard : Standard)
    (fits : Registry → Prop) : Prop :=
  ∀ name schema, standard.Met schema →
    ∀ before, fits before → fits (before.define name schema)

theorem ensures_register
    (hTakes : TakesMet standard fits)
    (name : String)
    (comments : List Comment)
    {schema : Schema}
    (hSchema : standard.Met schema) :
    Ensures fits standard.Met (register name comments schema) := by
  have hNamed := (met_titled hSchema name).describe comments
  exact (Ensures.define (hTakes name _ hNamed)).bind
    fun _ _ => .pure hNamed

/- An expression keeps to a standard if what is within it does. -/
theorem compiled_of_upheld
    (hTakes : TakesMet standard fits)
    {e : Expr}
    (hAdmits : standard.Admits compiler e)
    (hResolved : Ensures fits standard.Met (resolve expand e))
    (hParts : AllUpheld standard compiler expand fits e.form.parts) :
    Ensures fits standard.Met (expr compiler expand e) := by
  rcases e with ⟨form, note⟩
  cases form with
  | assignment op target value =>
      rw [Expr.form, Form.parts, allUpheld_append] at hParts
      cases op with
      | assign =>
          rw [expr]
          refine .checked fun name _ => ?_
          exact hParts.2.self.compiled.bind fun schema hSchema =>
            ensures_register hTakes name _ hSchema
      | compound op =>
          rw [expr]
          exact .fail _ _
  | binary op left right => exact ensures_binary hResolved hParts
  | logical op left right => exact ensures_logical hParts
  | unary op argument => exact ensures_unary hAdmits hParts
  | identifier name =>
      rw [expr]
      exact hResolved
  | member object property computed =>
      rw [expr]
      exact hResolved
  | object members => exact ensures_object hAdmits hParts
  | array elements =>
      rw [expr]
      exact ensures_array hParts false
  | number value =>
      rw [expr]
      · exact ensures_number _
      all_goals simp
  | string value =>
      rw [expr]
      exact .pure (met_constant trivial)
  | boolean value =>
      rw [expr]
      exact .pure (met_constant trivial)
  | null =>
      rw [expr]
      exact hResolved
  | regex pattern flags =>
      rw [expr]
      refine .pure (Standard.met_of_keys ["type", "pattern"] rfl
        (by decide) ?_)
      simp [Standard.Sound]
  | call callee arguments =>
      rw [expr]
      exact ensures_call hAdmits hParts
  | arrow params body =>
      rw [Expr.form, Form.parts, allUpheld_append] at hParts
      have hCompiled := hParts.2.self.compiled
      rcases params with _ | ⟨param, _ | ⟨second, more⟩⟩
      · rw [expr]
        · exact hCompiled
        all_goals simp
      · rw [expr]
        refine .checked fun name _ => ?_
        exact hCompiled.bind fun schema hSchema =>
          ensures_register hTakes name _ hSchema
      · rw [expr]
        · exact hCompiled
        all_goals simp
  | conditional test consequent alternate =>
      rw [Expr.form, Form.parts, allUpheld_append,
        allUpheld_append] at hParts
      rw [expr]
      refine hParts.1.self.compiled.bind fun first hFirst => ?_
      refine hParts.2.1.self.compiled.bind fun second hSecond => ?_
      refine hParts.2.2.self.compiled.bind fun third hThird => .pure ?_
      apply Standard.met_of_keys ["if", "then", "else"] rfl (by decide)
      simpa using ⟨hFirst.sound, hSecond.sound, hThird.sound⟩
  | spread argument =>
      rw [expr]
      · exact .fail _ _
      all_goals simp

/- What is taken as written is sound if what is within it is. -/
theorem written_of_upheld
    {e : Expr}
    (hAdmits : standard.Admits compiler e)
    (hResolved : Ensures fits standard.Met (resolve expand e))
    (hParts : AllUpheld standard compiler expand fits e.form.parts) :
    Ensures fits
      (fun schema => standard.removals = true → standard.Sound schema)
      (literal compiler expand e) := by
  have hSound :=
    hResolved.mono fun schema hMet
      (_ : standard.removals = true) => hMet.sound
  rw [literal.eq_def]
  split
  · exact .pure fun hRemovals => hRemovals
  · split
    · exact .pure fun _ => Standard.sound_ofBinary64 _
    · rcases e with ⟨form, note⟩
      cases form with
      | object members =>
          refine (ensures_literalMembers hParts).bind
            fun fields hFields => .pure ?_
          exact fun hRemovals =>
            Standard.sound_object.mpr (hFields hRemovals)
      | array elements =>
          refine (ensures_literalAll hParts).bind
            fun items hItems => .pure ?_
          exact fun hRemovals =>
            Standard.sound_array.mpr (hItems hRemovals)
      | string value => exact .pure fun _ => trivial
      | boolean value => exact .pure fun _ => trivial
      | null => exact .pure fun _ => trivial
      | identifier name => exact hSound
      | member object property computed => exact hSound
      | binary op left right => exact hSound
      | call callee arguments =>
          exact (ensures_call hAdmits hParts).mono
            fun schema hMet _ => hMet.sound
      | _ => exact .fail _ _

/-
  An expression keeps to a standard, if all within it is admitted and
  the names within it are resolved so. The induction is on its parts.
-/
theorem upheld_of_resolved
    (hTakes : TakesMet standard fits)
    {e : Expr}
    (hAdmits : ∀ part ∈ e.parts, standard.Admits compiler part)
    (hResolved :
      ∀ part ∈ e.parts,
        Ensures fits standard.Met (resolve expand part)) :
    Upheld standard compiler expand fits e := by
  have hPasses :
      Expr.Passes
        (fun part => standard.Admits compiler part ∧
          Ensures fits standard.Met (resolve expand part))
        (Upheld standard compiler expand fits) := by
    intro part hGood hParts
    exact ⟨hGood.1, compiled_of_upheld hTakes hGood.1 hGood.2 hParts,
      written_of_upheld hGood.1 hGood.2 hParts⟩
  exact e.forall_mem_parts hPasses
    (fun part hPart => ⟨hAdmits part hPart, hResolved part hPart⟩) e
    e.self_mem_parts

end Compile

------------------------------------------------------------
-- Declared Names
------------------------------------------------------------

namespace Registry

/- A name stands for a schema up to a standard, or for what may be. -/
def Entry.Keeps
    (standard : Standard)
    (admitted : Expr → Prop) : Entry → Prop
  | compiled schema => standard.Met schema
  | source e => admitted e

/- So it is for all names. -/
def Keeps
    (standard : Standard)
    (admitted : Expr → Prop)
    (registry : Registry) : Prop :=
  ∀ name entry, registry.get? name = some entry →
    entry.Keeps standard admitted

end Registry

------------------------------------------------------------
-- Names From The Start
------------------------------------------------------------

/- Whether a schema is a map of plain values, without a name in it. -/
def Schema.isFlat : Schema → Bool
  | object fields =>
    fields.toList.all fun entry =>
      !isNaming entry.1 && match entry.2 with
        | array _ => false
        | object _ => false
        | removal _ => false
        | _ => true
  | _ => false

theorem Standard.met_of_isFlat
    {schema : Schema}
    (hFlat : schema.isFlat = true)
    (standard : Standard) :
    standard.Met schema := by
  cases schema with
  | object fields =>
      simp only [Schema.isFlat, Bool.and_eq_true,
        List.all_eq_true] at hFlat
      refine met_of_keys _ rfl ?_ ?_
      · intro key hKey
        rcases OrderedMap.exists_of_mem_keys hKey with ⟨value, hEntry⟩
        simpa using (hFlat _ hEntry).1
      · rintro ⟨key, value⟩ hEntry
        have hValue := (hFlat _ hEntry).2
        cases value with
        | array items => cases hValue
        | object fields => cases hValue
        | removal span => cases hValue
        | _ => trivial
  | _ => cases hFlat

/- The schemas that have a name from the start are up to any standard. -/
theorem Registry.keeps_initial
    (standard : Standard)
    (admitted : Expr → Prop) :
    Registry.initial.Keeps standard admitted := by
  have hFlat : ∀ entry ∈ builtins.toList, entry.2.isFlat = true := by
    decide
  intro name entry hGet
  unfold initial at hGet
  rw [OrderedMap.get?_mapValues] at hGet
  rcases Option.map_eq_some_iff.mp hGet with ⟨schema, hBuiltin, rfl⟩
  exact Standard.met_of_isFlat
    (hFlat _ (OrderedMap.mem_of_get? hBuiltin)) standard

namespace Compile

variable {standard : Standard}
variable {compiler : Compiler}
variable {admitted : Expr → Prop}

theorem takesMet_keeps :
    TakesMet standard (Registry.Keeps standard admitted) := by
  intro name schema hMet before hKeeps other entry hGet
  unfold Registry.define at hGet
  rw [OrderedMap.get?_insert] at hGet
  split at hGet
  · cases hGet
    exact hMet
  · exact hKeeps other entry hGet

/-
  A declared expression is compiled once its name may no longer be
  referred to.
-/
theorem ensures_resolve
    {names : List String}
    (hInner :
      ∀ name ∈ names, ∀ source, admitted source →
        Ensures (Registry.Keeps standard admitted) standard.Met
          (expr compiler (expandWithin compiler (names.erase name))
            source))
    (e : Expr) :
    Ensures (Registry.Keeps standard admitted) standard.Met
      (resolve (expandWithin compiler names) e) := by
  rw [resolve]
  refine .checked fun name _ => .read fun registry hKeeps => ?_
  cases hGet : registry.get? name with
  | none => exact .fail _ _
  | some entry =>
      have hEntry := hKeeps name entry hGet
      cases entry with
      | compiled schema => exact .pure (met_titled hEntry name)
      | source source =>
          dsimp only
          rw [expandWithin]
          refine Ensures.bind ?_ fun schema hSchema =>
            .pure (met_titled hSchema name)
          split
          · rename_i hName
            exact hInner name hName source hEntry
          · exact .fail _ _

/-
  The induction is on the names that may be referred to. Each declared
  name that is resolved takes one of them away.
-/
theorem upheld_of_keeps
    (hAdmitted :
      ∀ e, admitted e → ∀ part ∈ e.parts, standard.Admits compiler part)
    (names : List String)
    {e : Expr}
    (hExpr : admitted e) :
    Upheld standard compiler (expandWithin compiler names)
      (Registry.Keeps standard admitted) e := by
  induction hCount : names.length using Nat.strongRecOn
    generalizing names e with
  | ind count ih =>
      apply upheld_of_resolved takesMet_keeps (hAdmitted e hExpr)
      intro part _
      apply ensures_resolve
      intro name hName source hSource
      have hLess : (names.erase name).length < count := by
        have hPositive := List.length_pos_of_mem hName
        rw [List.length_erase_of_mem hName, ← hCount]
        omega
      exact (ih _ hLess _ hSource rfl).compiled

end Compile

end SchemaLang
