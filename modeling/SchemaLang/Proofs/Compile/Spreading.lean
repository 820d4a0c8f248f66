import SchemaLang.Proofs.Compile.Closed
import SchemaLang.Proofs.Compile.Naming
import SchemaLang.Proofs.Compile.Plain
import SchemaLang.Proofs.Compile.Surface
import SchemaLang.Proofs.Compile.Traversal
import SchemaLang.Proofs.Operation.Distinct
import SchemaLang.Proofs.Schema.Inlining

/-
  Two lists of members in one object. They can be written in one
  literal, spread from two literals, merged by a method or put into the
  two sides of a case. The schemas are the same but for the order of
  required names, if no property is the mark of a removal: to state such
  a property keeps it, and to merge it takes the name away.

  Main declarations:
    * `Compile.unchanged_expr`
    * `Compile.States`
    * `Compile.states_of_object` and `Compile.yields_object`
    * `Compile.yields_spread`, `Compile.yields_merge` and
      `Compile.yields_case`
    * `Compile.spread_agrees_inline`
-/

namespace SchemaLang

/-
  Whether a member is a plain property without comments, whose value is
  neither taken away nor gives any name.
-/
def Member.isQuiet : Member → Bool
  | property key _ value _ comments =>
    key.isPlain && !value.isUndefined && value.given.isEmpty &&
      comments.isEmpty
  | spread _ => false

/- The name of a member. -/
def Member.word? : Member → Option String
  | property key _ _ _ _ => key.word?
  | spread _ => none

namespace Compile

variable {compiler : Compiler}
variable {expand : Expand}
variable {registry after : Registry}

------------------------------------------------------------
-- Names That Stay
------------------------------------------------------------

/- No name is given by what is declared. -/
def DeclaresQuietly
    (registry : Registry) : Prop :=
  ∀ name source, registry.get? name = some (.source source) →
    source.given = []

/- One run beside itself, on expressions that give no names. -/
theorem lockstep_unchanged
    (hDeclared : DeclaresQuietly registry) :
    Lockstep (fun before before' => before' = before ∧ before = registry)
      .all fun names names' e => names' = names ∧ e.given = [] where
  denoted := by
    rintro names _ e ⟨rfl, -⟩ name - before _ ⟨rfl, rfl⟩
    refine .inr ⟨rfl, fun source hSource => ⟨Iff.rfl, rfl, ?_⟩⟩
    exact hDeclared name source hSource
  given := by
    rintro names _ e ⟨-, hGiven⟩ name hName
    rw [hGiven] at hName
    cases hName

theorem unchanged_expr
    (hSilent : compiler.IsSilent)
    (hDeclared : DeclaresQuietly registry)
    (names : List String)
    {e : Expr}
    (hGiven : e.given = []) :
    (outcome (expr compiler (expandWithin compiler names) e)
      registry).2 = registry := by
  have hAlike :
      Alike compiler (expandWithin compiler names)
        (expandWithin compiler names)
        (fun before before' => before' = before ∧ before = registry)
        .all e :=
    (lockstep_unchanged hDeclared).alike hSilent ⟨rfl, hGiven⟩
  rcases hAlike.compiled registry registry ⟨rfl, rfl⟩ _ _ rfl trivial with
    ⟨after, -, -, hAfter⟩
  exact hAfter

------------------------------------------------------------
-- Object Literals
------------------------------------------------------------

/- A quiet member states a property, and its value gives no names. -/
inductive States
    (compiler : Compiler)
    (expand : Expand)
    (registry : Registry) : Member → Stated → Prop
  | property
      {key : Key}
      {name : String}
      {value : Expr}
      {schema : Schema}
      (computed : Bool)
      (span : Span)
      (hPlain : key.isPlain = true)
      (hWord : key.word? = some name)
      (hDefined : value.isUndefined = false)
      (hValue : Yields registry (expr compiler expand value) schema) :
      States compiler expand registry
        (.property key computed value span {})
        ⟨name, !computed, schema⟩

theorem States.word?_eq
    {member : Member}
    {stated : Stated}
    (hStates : States compiler expand registry member stated) :
    member.word? = some stated.name := by
  cases hStates with
  | property _ _ _ hWord => exact hWord

/- A plain key has a name, and this is no directive. -/
theorem word_of_isPlain
    (compiler : Compiler)
    {key : Key}
    (hPlain : key.isPlain = true) :
    ∃ name,
      key.word? = some name ∧ directive? compiler name = none := by
  rcases propertyName_of_isPlain compiler hPlain {} with
    ⟨name, hName, -, hDirective⟩
  refine ⟨name, ?_, hDirective⟩
  cases key with
  | identifier _ => exact hName
  | string _ => exact hName
  | _ => cases hPlain

/- What a member states is put behind the other properties. -/
theorem yields_memberStep
    {member : Member}
    {stated : Stated}
    (hStates : States compiler expand registry member stated)
    (previous : Option Member)
    (state : Reconciled) :
    Yields registry
      (memberStep compiler expand previous state.toFields member)
      (state.put stated).toFields := by
  cases hStates with
  | @property key name value schema computed span hPlain hWord hDefined
      hValue =>
      rcases word_of_isPlain compiler hPlain with
        ⟨_, hSame, hDirective⟩
      cases hWord.symm.trans hSame
      unfold memberStep
      dsimp only
      rw [propertyInto_ordinary hWord hDirective, ordinaryInto, hDefined,
        if_neg (by decide)]
      refine hValue.bind ?_
      dsimp only
      rw [Reconciled.toFields, Fields.toggleRequired_ofProperties]
      dsimp only [Member.describe]
      rw [Fields.insertProperty_ofProperties]
      exact Yields.pure _

theorem yields_memberList
    {members : List Member}
    {said : List Stated}
    (hStates :
      List.Forall₂ (States compiler expand registry) members said)
    (previous : Option Member)
    (state : Reconciled) :
    Yields registry
      (memberList compiler expand previous state.toFields members)
      (state.putAll said).toFields := by
  induction hStates generalizing previous state with
  | nil =>
      rw [memberList]
      exact .pure _
  | cons hFirst _ ih =>
      rw [memberList_cons]
      exact (yields_memberStep hFirst previous state).bind (ih _ _)

theorem any_isPattern_of_states
    {members : List Member}
    {said : List Stated}
    (hStates :
      List.Forall₂ (States compiler expand registry) members said) :
    members.any Member.isPattern = false := by
  induction hStates with
  | nil => rfl
  | cons hFirst _ ih =>
      rw [List.any_cons, ih, Bool.or_false]
      cases hFirst with
      | property computed span hPlain hWord hDefined hValue =>
          rcases Key.word_cases hWord with rfl | rfl
          · rfl
          · rfl

/- An object literal has the properties that its members state. -/
theorem yields_object
    {members : List Member}
    {said : List Stated}
    {note : Note}
    (hStates :
      List.Forall₂ (States compiler expand registry) members said)
    (hNote : note.comments.isEmpty = true) :
    Yields registry (expr compiler expand ⟨.object members, note⟩)
      (.object (Reconciled.empty.putAll said).toFields) := by
  rw [expr]
  refine (yields_memberList hStates none Reconciled.empty).bind ?_
  rw [any_isPattern_of_states hStates, if_neg (by decide), pure_bind,
    Comments.isEmpty_iff.mp hNote]
  exact .pure _

section

variable (hUnchanged :
  ∀ value : Expr, value.given = [] →
    (outcome (expr compiler expand value) registry).2 = registry)
variable {previous : Option Member}
variable {fields result : Fields}

include hUnchanged

/- If a quiet member is compiled, it states a property. -/
theorem states_of_memberStep
    {member : Member}
    (hQuiet : member.isQuiet = true)
    (hEnds :
      outcome (memberStep compiler expand previous fields member)
          registry =
        (.ok result, after)) :
    after = registry ∧
      ∃ stated, States compiler expand registry member stated := by
  cases member with
  | spread e => cases hQuiet
  | property key computed value span comments =>
      simp only [Member.isQuiet, Bool.and_eq_true, Bool.not_eq_true',
        List.isEmpty_iff, Comments.isEmpty_iff] at hQuiet
      rcases hQuiet with ⟨⟨⟨hPlain, hDefined⟩, hGiven⟩, rfl⟩
      rcases word_of_isPlain compiler hPlain with
        ⟨name, hWord, hDirective⟩
      unfold memberStep at hEnds
      dsimp only at hEnds
      rw [propertyInto_ordinary hWord hDirective, ordinaryInto, hDefined,
        if_neg (by decide), outcome_bind] at hEnds
      rcases andThen_eq_ok hEnds with ⟨schema, between, hValue, hRest⟩
      have hBetween := hUnchanged value hGiven
      rw [hValue] at hBetween
      cases hBetween
      cases hRest
      exact ⟨rfl, _, .property computed span hPlain hWord hDefined hValue⟩

theorem states_of_memberList
    {members : List Member}
    (hQuiet : ∀ member ∈ members, member.isQuiet = true)
    (hEnds :
      outcome (memberList compiler expand previous fields members)
          registry =
        (.ok result, after)) :
    ∃ said,
      List.Forall₂ (States compiler expand registry) members said := by
  induction members generalizing previous fields with
  | nil => exact ⟨[], .nil⟩
  | cons member rest ih =>
      rw [List.forall_mem_cons] at hQuiet
      rw [memberList_cons, outcome_bind] at hEnds
      rcases andThen_eq_ok hEnds with ⟨between, middle, hStep, hRest⟩
      rcases states_of_memberStep hUnchanged hQuiet.1 hStep with
        ⟨rfl, stated, hStates⟩
      rcases ih hQuiet.2 hRest with ⟨said, hSaid⟩
      exact ⟨stated :: said, .cons hStates hSaid⟩

end

------------------------------------------------------------
-- Spreads, Merges And Cases
------------------------------------------------------------

variable {source : Reconciled}
variable {members : List Member}
variable {note : Note}

/- To spread an object literal is to merge it. -/
theorem yields_spreadInto
    (hSource :
      Yields registry (expr compiler expand ⟨.object members, note⟩)
        (.object source.toFields))
    (state : Reconciled) :
    Yields registry
      (spreadInto compiler expand state.toFields ⟨.object members, note⟩)
      (state.take source.toFields).toFields := by
  rw [spreadInto]
  · exact hSource.bind (.check (Fields.merge_toFields state source _))
  · intro _ _ _ _ hSame
    cases hSame

section

variable {left right : Expr}
variable {first second : Reconciled}
variable (hLeft : ∀ state : Reconciled,
  Yields registry (spreadInto compiler expand state.toFields left)
    (state.take first.toFields).toFields)
variable (hRight : ∀ state : Reconciled,
  Yields registry (spreadInto compiler expand state.toFields right)
    (state.take second.toFields).toFields)

include hLeft hRight

theorem yields_spread
    (inner inner' : Note)
    {outer : Note}
    (hOuter : outer.comments.isEmpty = true) :
    Yields registry
      (expr compiler expand
        ⟨.object [.spread ⟨.spread left, inner⟩,
          .spread ⟨.spread right, inner'⟩], outer⟩)
      (.object ((Reconciled.empty.take first.toFields).take
        second.toFields).toFields) := by
  have hMembers :
      Yields registry
        (memberList compiler expand none Fields.skeleton
          [.spread ⟨.spread left, inner⟩, .spread ⟨.spread right, inner'⟩])
        ((Reconciled.empty.take first.toFields).take
          second.toFields).toFields := by
    rw [memberList_cons]
    refine (hLeft Reconciled.empty).bind ?_
    rw [memberList_cons]
    refine (hRight _).bind ?_
    rw [memberList]
    exact .pure _
  rw [expr]
  refine hMembers.bind ?_
  rw [Comments.isEmpty_iff.mp hOuter]
  exact .pure _

/- The consequence of a case is both of its sides in one object. -/
theorem yields_case
    {condition : Schema}
    (hCondition : Yields registry (expr compiler expand left) condition)
    (note : Note) :
    Yields registry
      (expr compiler expand ⟨.binary .shr left right, note⟩)
      (.object
        (.of
          [("if", condition.setKey "additionalProperties" (.bool true)),
            ("then",
              .object ((Reconciled.empty.take first.toFields).take
                second.toFields).toFields)])) := by
  have hCase :
      Yields registry (case compiler expand left right)
        (condition.setKey "additionalProperties" (.bool true),
          .object ((Reconciled.empty.take first.toFields).take
            second.toFields).toFields) := by
    rw [case]
    exact hCondition.bind ((hLeft Reconciled.empty).bind
      ((hRight _).bind (.pure _)))
  rw [expr]
  exact hCase.bind (.pure _)

end

/- A method merges one object literal into another one. -/
theorem yields_merge
    {first second : Reconciled}
    {left right property : Expr}
    (hLeft :
      Yields registry (expr compiler expand left) (.object first.toFields))
    (hRight :
      Yields registry (expr compiler expand right)
        (.object second.toFields))
    (hProperty : property.identifier? = some "merge")
    (hMethod : compiler.methods.get? "merge" = some Method.merge)
    (middle note : Note) :
    Yields registry
      (expr compiler expand
        ⟨.call ⟨.member left property false, middle⟩ [right], note⟩)
      (.object (first.take second.toFields).toFields) := by
  have hSources :
      Yields registry
        (evaluate compiler expand .schemas ⟨"merge", [right], note.span⟩)
        [.object second.toFields] := by
    rw [evaluate, all, all]
    exact (Yields.check rfl).bind (hRight.bind ((Yields.pure []).bind
      (.pure _)))
  have hFinish :
      (Schema.object first.toFields).merge [.object second.toFields]
          "merge" note.span =
        .ok (.object (first.take second.toFields).toFields) := by
    rw [Schema.merge_object, Fields.merge_toFields]
    rfl
  rw [expr_call_method hProperty hMethod]
  refine hLeft.bind ((yields_run rfl hSources hFinish).bind ?_)
  exact .pure _

------------------------------------------------------------
-- Two Lists Of Members
------------------------------------------------------------

/- What an expression yields where nothing is being resolved. -/
theorem yields_compile
    {e : Expr}
    {schema : Schema}
    (hExpr :
      Yields registry
        (expr compiler (expandWithin compiler registry.declaredNames) e)
        schema) :
    Yields registry (compile compiler e) schema := by
  unfold Yields
  rw [outcome_compile]
  exact hExpr

theorem names_of_states
    {said : List Stated}
    (hStates :
      List.Forall₂ (States compiler expand registry) members said) :
    said.map Stated.name = members.filterMap Member.word? := by
  induction hStates with
  | nil => rfl
  | cons hFirst _ ih =>
      rw [List.map_cons, ih, List.filterMap_cons_some hFirst.word?_eq]

/- A literal that is compiled states a property for each quiet member. -/
theorem states_of_object
    (hSilent : compiler.IsSilent)
    (hDeclared : DeclaresQuietly registry)
    {names : List String}
    {schema : Schema}
    (hQuiet : ∀ member ∈ members, member.isQuiet = true)
    (hEnds :
      outcome
          (expr compiler (expandWithin compiler names)
            ⟨.object members, note⟩) registry =
        (.ok schema, after)) :
    ∃ said,
      List.Forall₂
        (States compiler (expandWithin compiler names) registry) members
        said := by
  rcases parts_of_object hEnds with ⟨fields, -, between, hMembers, -⟩
  exact states_of_memberList
    (fun _ hGiven => unchanged_expr hSilent hDeclared names hGiven) hQuiet
    hMembers

/- Two lists that are compiled in one literal state properties apart. -/
theorem states_of_both
    (hSilent : compiler.IsSilent)
    (hDeclared : DeclaresQuietly registry)
    {names : List String}
    {first second : List Member}
    {schema : Schema}
    (hQuiet : ∀ member ∈ first ++ second, member.isQuiet = true)
    (hEnds :
      outcome
          (expr compiler (expandWithin compiler names)
            ⟨.object (first ++ second), note⟩) registry =
        (.ok schema, after)) :
    ∃ stated others,
      List.Forall₂
          (States compiler (expandWithin compiler names) registry) first
          stated ∧
        List.Forall₂
          (States compiler (expandWithin compiler names) registry) second
          others := by
  rcases states_of_object hSilent hDeclared hQuiet hEnds with ⟨said, hSaid⟩
  have hFirst := List.forall₂_take first.length hSaid
  have hSecond := List.forall₂_drop first.length hSaid
  rw [List.take_left] at hFirst
  rw [List.drop_left] at hSecond
  exact ⟨_, _, hFirst, hSecond⟩

/- What is stated apart and then merged agrees with all in one literal. -/
theorem agrees_of_mem_merges
    {first second : List Member}
    {stated others : List Stated}
    (hFirst : List.Forall₂ (States compiler expand registry) first stated)
    (hSecond : List.Forall₂ (States compiler expand registry) second others)
    (hKept :
      (Schema.object
        (Reconciled.empty.putAll stated).toFields).statesRemoval = false)
    (hOthersKept :
      (Schema.object
        (Reconciled.empty.putAll others).toFields).statesRemoval = false) :
    ∀ merged ∈ Reconciled.merges stated others,
      (Schema.object merged.toFields).SameButOrder
          (.object (Reconciled.empty.putAll (stated ++ others)).toFields) ∧
        ((first.filterMap Member.word?).Nodup →
          (second.filterMap Member.word?).Nodup →
            Schema.object merged.toFields =
              .object
                (Reconciled.empty.putAll (stated ++ others)).toFields) := by
  intro merged hMerged
  have hFirstKept := Schema.keepsAll_of_statesRemoval hKept
  have hSecondKept := Schema.keepsAll_of_statesRemoval hOthersKept
  refine ⟨?_, fun hNames hOtherNames => ?_⟩
  · exact Schema.sameButOrder_of_similar
      (Reconciled.similar_of_mem_merges hFirstKept hSecondKept merged
        hMerged)
  · rw [← names_of_states hFirst] at hNames
    rw [← names_of_states hSecond] at hOtherNames
    rw [Reconciled.eq_of_mem_merges hFirstKept hSecondKept hNames
      hOtherNames merged hMerged]

/-
  The schema of two lists of members in one literal, and those of both
  lists apart. Where these are spread, merged or put into a case, all
  that may change is the order of required names, if no property is a
  removal; if no list has a name twice, not even this.
-/
theorem spread_agrees_inline
    (version : Version)
    (registry after : Registry)
    (first second : List Member)
    (whole left right outer inner inner' middle called shifted : Note)
    (property : Expr)
    (schema : Schema)
    (hQuiet : ∀ member ∈ first ++ second, member.isQuiet = true)
    (hNotes :
      ∀ note ∈ [whole, left, right, outer], note.comments.isEmpty = true)
    (hProperty : property.identifier? = some "merge")
    (hDeclared : DeclaresQuietly registry)
    (hEnds :
      outcome
          (compile { version := version } ⟨.object (first ++ second), whole⟩)
          registry =
        (.ok schema, after)) :
    after = registry ∧
      ∃ condition other spread merged consequence,
        Yields registry
          (compile { version := version } ⟨.object first, left⟩)
          condition ∧
        Yields registry
          (compile { version := version } ⟨.object second, right⟩)
          other ∧
        Yields registry
          (compile { version := version }
            ⟨.object
              [.spread ⟨.spread ⟨.object first, left⟩, inner⟩,
                .spread ⟨.spread ⟨.object second, right⟩, inner'⟩],
              outer⟩)
          spread ∧
        Yields registry
          (compile { version := version }
            ⟨.call ⟨.member ⟨.object first, left⟩ property false, middle⟩
              [⟨.object second, right⟩], called⟩)
          merged ∧
        Yields registry
          (compile { version := version }
            ⟨.binary .shr ⟨.object first, left⟩ ⟨.object second, right⟩,
              shifted⟩)
          (.object
            (.of
              [("if", condition.setKey "additionalProperties" (.bool true)),
                ("then", consequence)])) ∧
        (condition.statesRemoval = false → other.statesRemoval = false →
          ∀ result ∈ [spread, merged, consequence],
            result.SameButOrder schema ∧
              ((first.filterMap Member.word?).Nodup →
                (second.filterMap Member.word?).Nodup →
                  result = schema)) := by
  simp only [List.forall_mem_cons, List.not_mem_nil, false_implies,
    implies_true, and_true] at hNotes
  rcases hNotes with ⟨hWhole, hLeft, hRight, hOuter⟩
  rw [outcome_compile] at hEnds
  rcases states_of_both (Compiler.isSilent_builtin version) hDeclared hQuiet
      hEnds with ⟨stated, others, hFirst, hSecond⟩
  have hInline := yields_object (List.rel_append hFirst hSecond) hWhole
  have hCondition := yields_object hFirst hLeft
  have hOther := yields_object hSecond hRight
  have hSpreadFirst := yields_spreadInto hCondition
  have hSpreadSecond := yields_spreadInto hOther
  cases hEnds.symm.trans hInline
  refine ⟨rfl, _, _, _, _, _, yields_compile hCondition,
    yields_compile hOther,
    yields_compile
      (yields_spread hSpreadFirst hSpreadSecond inner inner' hOuter),
    yields_compile
      (yields_merge hCondition hOther hProperty rfl middle called),
    yields_compile
      (yields_case hSpreadFirst hSpreadSecond hCondition shifted), ?_⟩
  intro hKept hOthersKept
  -- A case has its sides spread as they are in a literal.
  have hMerges := agrees_of_mem_merges hFirst hSecond hKept hOthersKept
  simp only [Reconciled.merges, List.forall_mem_cons, List.not_mem_nil,
    false_implies, implies_true, and_true] at hMerges ⊢
  exact ⟨hMerges.1, hMerges.2, hMerges.1⟩

------------------------------------------------------------
-- Two Examples
------------------------------------------------------------

/- A member with a name as its value. -/
def naming
    (key : String)
    (computed : Bool)
    (name : String) : Member :=
  .property (.string key) computed ⟨.identifier name, {}⟩ {} {}

/- The spread of two literals. -/
def spreading
    (first second : List Member) : Expr :=
  ⟨.object
    [.spread ⟨.spread ⟨.object first, {}⟩, {}⟩,
      .spread ⟨.spread ⟨.object second, {}⟩, {}⟩], {}⟩

/- A member states what its name stands for. -/
theorem states_naming
    {key name : String}
    {schema : Schema}
    (hKey : (Key.string key).isPlain = true)
    (hDefined : (⟨.identifier name, {}⟩ : Expr).isUndefined = false)
    (hGet : registry.get? name = some (.compiled schema))
    (computed : Bool) :
    States compiler expand registry (naming key computed name)
      ⟨key, !computed, titled name schema⟩ := by
  exact .property computed {} hKey rfl hDefined
    (yields_reference rfl hGet expand)

/- The members `a: int, b: int` and `["a"]: int, a: int`. -/
def twiceStated : List Member × List Member :=
  ([naming "a" false "int", naming "b" false "int"],
    [naming "a" true "int", naming "a" false "int"])

def integer : Schema :=
  .object (.single "type" (.string "integer"))

/- The map of properties with which `a` and `b` are integers. -/
def twoIntegers : Fields :=
  .of [("a", integer), ("b", integer)]

theorem states_int
    {key : String}
    (hKey : (Key.string key).isPlain = true)
    (computed : Bool) :
    States {} expand Registry.initial (naming key computed "int")
      ⟨key, !computed, integer⟩ :=
  states_naming hKey rfl rfl computed

theorem states_twiceStated
    (expand : Expand) :
    List.Forall₂ (States {} expand Registry.initial) twiceStated.1
        [⟨"a", true, integer⟩, ⟨"b", true, integer⟩] ∧
      List.Forall₂ (States {} expand Registry.initial) twiceStated.2
        [⟨"a", false, integer⟩, ⟨"a", true, integer⟩] :=
  ⟨.cons (states_int rfl false) (.cons (states_int rfl false) .nil),
    .cons (states_int rfl true) (.cons (states_int rfl false) .nil)⟩

theorem declaresQuietly_initial :
    DeclaresQuietly Registry.initial := by
  intro name source hSource
  unfold Registry.initial at hSource
  rw [OrderedMap.get?_mapValues] at hSource
  rcases Option.map_eq_some_iff.mp hSource with ⟨schema, -, hCompiled⟩
  cases hCompiled

theorem DeclaresQuietly.define
    (hDeclared : DeclaresQuietly registry)
    (name : String)
    (schema : Schema) :
    DeclaresQuietly (registry.define name schema) := by
  intro other source hSource
  unfold Registry.define at hSource
  rw [OrderedMap.get?_insert] at hSource
  split at hSource
  · cases hSource
  · exact hDeclared other source hSource

/-
  In one literal `a` is taken off the list of required names once, and
  comes back behind `b`. Spread, it never leaves its place.
-/
theorem spread_agrees_inline_twiceStated :
    (∀ member ∈ twiceStated.1 ++ twiceStated.2, member.isQuiet = true) ∧
      DeclaresQuietly Registry.initial ∧
      ∃ inline spread : Fields,
        outcome
            (compile {} ⟨.object (twiceStated.1 ++ twiceStated.2), {}⟩)
            Registry.initial =
          (.ok (.object inline), Registry.initial) ∧
        outcome (compile {} (spreading twiceStated.1 twiceStated.2))
            Registry.initial =
          (.ok (.object spread), Registry.initial) ∧
        Fields.requiredNames inline = ["b", "a"] ∧
        Fields.requiredNames spread = ["a", "b"] ∧
        (Schema.object spread).SameButOrder (.object inline) := by
  have hQuiet :
      ∀ member ∈ twiceStated.1 ++ twiceStated.2, member.isQuiet = true := by
    decide
  have hNotes :
      ∀ note ∈ [({} : Note), {}, {}, {}], note.comments.isEmpty = true := by
    decide
  rcases states_twiceStated
      (expandWithin {} Registry.initial.declaredNames) with
    ⟨hFirst, hSecond⟩
  have hPlain : ({} : Note).comments.isEmpty = true := rfl
  have hLeft := yields_object hFirst hPlain
  have hRight := yields_object hSecond hPlain
  have hBoth :=
    yields_spread (yields_spreadInto hLeft) (yields_spreadInto hRight)
      {} {} hPlain
  have hInline :=
    yields_compile
      (yields_object (List.rel_append hFirst hSecond) hPlain)
  rcases spread_agrees_inline .draft07 Registry.initial _ twiceStated.1
      twiceStated.2 {} {} {} {} {} {} {} {} {} ⟨.identifier "merge", {}⟩ _
      hQuiet hNotes rfl declaresQuietly_initial hInline with
    ⟨-, condition, other, spread, merged, consequence, hCondition, hOther,
      hSpread, -, -, hAgree⟩
  cases hCondition.symm.trans (yields_compile hLeft)
  cases hOther.symm.trans (yields_compile hRight)
  cases hSpread.symm.trans (yields_compile hBoth)
  have hSame := (hAgree rfl rfl _ List.mem_cons_self).1
  exact ⟨hQuiet, declaresQuietly_initial, _, _, hInline, hSpread, by decide,
    by decide, hSame⟩

/- The registry where `Gone` stands for the mark of a removal. -/
def goneRegistry : Registry :=
  Registry.initial.define "Gone" (.removal {})

/- A mark that is stated is kept, and it is lost when it is spread. -/
theorem spread_loses_removal :
    (∀ member ∈ [naming "a" false "Gone"], member.isQuiet = true) ∧
      DeclaresQuietly goneRegistry ∧
      ∃ inline spread : Fields,
        outcome (compile {} ⟨.object ([naming "a" false "Gone"] ++ []), {}⟩)
            goneRegistry =
          (.ok (.object inline), goneRegistry) ∧
        outcome (compile {} (spreading [naming "a" false "Gone"] []))
            goneRegistry =
          (.ok (.object spread), goneRegistry) ∧
        ¬ (Schema.object spread).SameButOrder (.object inline) := by
  have hGet :
      goneRegistry.get? "Gone" = some (.compiled (.removal {})) := rfl
  have hStates :
      List.Forall₂
        (States {} (expandWithin {} goneRegistry.declaredNames)
          goneRegistry)
        [naming "a" false "Gone"] [⟨"a", true, .removal {}⟩] :=
    .cons (states_naming rfl rfl hGet false) .nil
  have hPlain : ({} : Note).comments.isEmpty = true := rfl
  have hInline := yields_object hStates hPlain
  have hBoth :=
    yields_spread (yields_spreadInto hInline)
      (yields_spreadInto (yields_object .nil hPlain)) {} {} hPlain
  refine ⟨by decide, declaresQuietly_initial.define _ _, _, _,
    yields_compile hInline, yields_compile hBoth, fun hSame => ?_⟩
  have hPerm := hSame.perm_requiredNames
  revert hPerm
  decide

end Compile

end SchemaLang
