import SchemaLang.Compile.Setup
import SchemaLang.Proofs.Operation.Arguments
import SchemaLang.Proofs.Schema.Merging
import SchemaLang.Proofs.Schema.Properties

/-
  Operations that respect a likeness: on schemas that are seen alike,
  and for calls that are alike, they give schemas that are seen alike.
  The operations that are directives do so for every fair view; those
  that only select keys or properties need to see all of them.

  Main declarations:
    * `Demand.Same`
    * `Method.Respects` and `Function.Respects`
    * `Method.respects_shared`
    * `Method.respects_builtins`
    * `Compiler.Respects` and `Compiler.respects_builtin`
-/

namespace SchemaLang

open Schema (seen seenItems seenPairs seenFields)

------------------------------------------------------------
-- Operations
------------------------------------------------------------

/- What arguments become is seen alike. -/
def Demand.Same
    (view : View) :
    (demand : Demand) → demand.Result → demand.Result → Prop
  | .nothing => fun _ _ => True
  | .value _ => view.Same
  | .schemas => view.SameItems
  | .entries => view.SamePairs
  | .definitions => view.Same

/-
  A method gives no names by itself, and what it finishes with is seen
  alike if all that it looks at is.
-/
structure Method.Respects
    (likeness : Likeness)
    (method : Method) : Prop where
  silent : method.demand ≠ .definitions
  finish :
    ∀ {schema schema' call call' result result'},
      likeness.view.Same schema schema' →
        Call.Like likeness call call' →
          method.demand.Same likeness.view result result' →
            Matches likeness.located likeness.view.Same
              (method.finish schema call result)
              (method.finish schema' call' result')

structure Function.Respects
    (likeness : Likeness)
    (function : Function) : Prop where
  silent : function.demand ≠ .definitions
  finish :
    ∀ {call call' result result'},
      Call.Like likeness call call' →
        function.demand.Same likeness.view result result' →
          Matches likeness.located likeness.view.Same
            (function.finish call result)
            (function.finish call' result')

------------------------------------------------------------
-- Properties That Are Selected
------------------------------------------------------------

namespace View

variable {view : View}
variable {fields fields' : Fields}

theorem SameFields.choosing
    (hFields : view.SameFields fields fields')
    {change : List String → List String}
    (hChange :
      view.SameNames (change (Fields.requiredNames fields))
        (change (Fields.requiredNames fields')))
    {choose : Fields → Fields}
    (hChoose :
      ∀ properties properties',
        view.SameFields properties properties' →
          view.SameFields (choose properties) (choose properties')) :
    view.SameFields (fields.choosing change choose)
      (fields'.choosing change choose) := by
  have hChanged :
      view.SameFields (fields.changeRequired change)
        (fields'.changeRequired change) := by
    unfold Fields.changeRequired
    rw [hFields.contains (shows_of_ne "required" (by decide))]
    split
    · exact hFields.setRequired hChange
    · exact hFields
  unfold Fields.choosing
  dsimp only
  rcases hChanged.properties_cases with
    ⟨hFirst, hSecond⟩ | ⟨properties, properties', hFirst, hSecond, hSame⟩
  · rw [hFirst, hSecond]
    exact hChanged
  · rw [hFirst, hSecond]
    exact hChanged.insert "properties"
      (same_object (hChoose properties properties' hSame))

theorem SameFields.drop
    (hFields : view.SameFields fields fields')
    (names : List String) :
    view.SameFields (Fields.drop fields names)
      (Fields.drop fields' names) := by
  have hComm :
      ∀ required : List String,
        (required.filter fun name => !names.contains name).filter
            view.lists =
          (required.filter view.lists).filter
            fun name => !names.contains name :=
    fun required => List.filter_comm ..
  have hNames := hFields.requiredNames
  rw [Fields.drop_eq_choosing, Fields.drop_eq_choosing]
  refine hFields.choosing ?_ fun _ _ hSame =>
    hSame.filter fun name => !names.contains name
  unfold SameNames at hNames ⊢
  rw [hComm, hComm, hNames]

theorem SameFields.demandAll
    (hFields : view.SameFields fields fields')
    (names : List String)
    (wanted : Bool) :
    view.SameFields (Fields.demandAll fields names wanted)
      (Fields.demandAll fields' names wanted) := by
  have hDemand :
      ∀ required required', view.SameNames required required' →
        view.SameNames
          (names.foldl
            (fun required name => Reconciled.demand required name wanted)
            required)
          (names.foldl
            (fun required name => Reconciled.demand required name wanted)
            required') := by
    induction names with
    | nil => exact fun _ _ hNames => hNames
    | cons name rest ih =>
        intro required required' hNames
        refine ih _ _ ?_
        unfold SameNames at hNames ⊢
        rw [filter_demand, filter_demand, hNames]
  exact hFields.setRequired (hDemand _ _ hFields.requiredNames)

theorem SameFields.pick
    (hComplete : view.IsComplete)
    (hFields : view.SameFields fields fields')
    (selected : Call.Selection) :
    view.SameFields (Fields.pick fields selected)
      (Fields.pick fields' selected) := by
  have hNames := hComplete.sameNames_iff.mp hFields.requiredNames
  have hPicked :
      ∀ properties : Fields,
        seenPairs view (Fields.picked properties selected) =
          (seenPairs view properties.toList).filterMap fun entry =>
            (selected.get? entry.1).map
              fun renamed => (renamed, entry.2) := by
    intro properties
    unfold Fields.picked
    rw [hComplete.seenPairs_eq, hComplete.seenPairs_eq,
      List.map_filterMap, List.filterMap_map]
    simp [Function.comp_def]
  rw [Fields.pick_eq_choosing, Fields.pick_eq_choosing]
  refine hFields.choosing (by rw [hNames]; rfl) ?_
  intro properties properties' hSame
  refine SameFields.insertAll rfl ?_
  unfold SamePairs
  rw [hPicked, hPicked, sameFields_iff.mp hSame]

end View

------------------------------------------------------------
-- Methods
------------------------------------------------------------

namespace Method

variable {likeness : Likeness}

/- A receiver is admitted or refused for its kind. -/
theorem matches_admits
    (method : Method)
    {schema schema' : Schema}
    {call call' : Call}
    (hSame : likeness.view.Same schema schema')
    (hCall : Call.Like likeness call call') :
    Matches likeness.located Eq (method.admits schema call)
      (method.admits schema' call') := by
  unfold admits
  cases method.receiver with
  | none => exact .ok rfl
  | some kind =>
      dsimp only
      rw [hSame.kind]
      split
      · exact .ok rfl
      · exact hCall.fault _

theorem respects_setting
    (receiver : Option Schema.Kind)
    {key : Call → String}
    {value : Call → Except CompileError Schema}
    (hKey :
      ∀ call call', Call.Like likeness call call' → key call = key call')
    (hValue :
      ∀ call call', Call.Like likeness call call' →
        Matches likeness.located likeness.view.Same (value call)
          (value call')) :
    (setting receiver key value).Respects likeness where
  silent := by simp [setting]
  finish := by
    intro schema schema' call call' _ _ hSame hCall _
    refine (hValue call call' hCall).bind fun value value' hValue => ?_
    rw [hKey call call' hCall]
    exact .ok (hSame.setKey _ hValue)

theorem respects_number
    (receiver : Schema.Kind)
    {key : Call → String}
    (hKey :
      ∀ call call', Call.Like likeness call call' →
        key call = key call') :
    (number receiver key).Respects likeness := by
  refine respects_setting _ hKey fun call call' hCall => ?_
  refine hCall.oneNumber.bind fun value value' hValue => .ok ?_
  exact congrArg (seen likeness.view) hValue

theorem respects_text
    (receiver : Option Schema.Kind)
    (key : String) :
    (text receiver key).Respects likeness := by
  refine respects_setting _ (fun _ _ _ => rfl) fun call call' hCall => ?_
  refine hCall.oneString.bind ?_
  rintro value _ rfl
  exact .ok rfl

theorem respects_flag
    (receiver : Schema.Kind)
    (key : String) :
    (flag receiver key).Respects likeness := by
  refine respects_setting _ (fun _ _ _ => rfl) fun call call' hCall => ?_
  refine hCall.oneBoolean.bind ?_
  rintro value _ rfl
  exact .ok rfl

theorem respects_pattern :
    pattern.Respects likeness := by
  refine respects_setting _ (fun _ _ _ => rfl) fun call call' hCall => ?_
  refine hCall.onePattern.bind ?_
  rintro value _ rfl
  exact .ok rfl

theorem respects_schema
    (receiver : Option Schema.Kind)
    (key : String)
    (reading : Reading) :
    (schema receiver key reading).Respects likeness where
  silent := by simp [schema]
  finish := by
    intro schema schema' call call' value value' hSame _ hValue
    exact .ok (hSame.setKey key hValue)

theorem respects_required :
    required.Respects likeness where
  silent := by decide
  finish := by
    intro schema schema' call call' _ _ hSame hCall _
    refine hCall.requirement.bind ?_
    rintro found _ rfl
    cases found with
    | list names => exact .ok (hSame.setKey _ rfl)
    | names names =>
        exact .ok (hSame.mapFields fun _ _ hFields =>
          hFields.demandAll names true)

theorem respects_notRequired :
    notRequired.Respects likeness where
  silent := by decide
  finish := by
    intro schema schema' call call' _ _ hSame hCall _
    refine hCall.requirement.bind ?_
    rintro found _ rfl
    cases found with
    | list names =>
        exact .ok (hSame.mapFields fun _ _ hFields =>
          hFields.demandAll names false)
    | names names =>
        exact .ok (hSame.mapFields fun _ _ hFields =>
          hFields.demandAll names false)

theorem respects_merge :
    merge.Respects likeness where
  silent := by decide
  finish := by
    intro schema schema' call call' sources sources' hSame hCall hSources
    have hMerged :=
      hSame.merge likeness.fair hSources call.name hCall.span
    simp only [merge]
    rw [← hCall.name]
    exact hMerged

theorem respects_set :
    set.Respects likeness where
  silent := by decide
  finish := by
    intro schema schema' call call' entries entries' hSame _ hEntries
    exact .ok (hSame.setKeys hEntries)

theorem respects_remove :
    remove.Respects likeness where
  silent := by decide
  finish := by
    intro schema schema' call call' _ _ hSame hCall _
    refine hCall.atLeastOne.bind fun _ _ _ => ?_
    refine hCall.onlyStrings.bind ?_
    rintro names _ rfl
    exact .ok (hSame.mapFields fun _ _ hFields => hFields.drop names)

/- The branches of a union are seen alike. -/
theorem branches_cases
    {view : View}
    {schema schema' : Schema}
    (hSame : view.Same schema schema') :
    (branches? schema = none ∧ branches? schema' = none) ∨
      ∃ key branches branches',
        branches? schema = some (key, branches) ∧
          branches? schema' = some (key, branches') ∧
          view.SameItems branches branches' := by
  have hKey :
      ∀ key, key ≠ "description" → key ≠ "required" →
        (∃ branches branches',
          schema.get? key = some (.array branches) ∧
            schema'.get? key = some (.array branches') ∧
            view.SameItems branches branches') ∨
          (∀ branches, schema.get? key ≠ some (.array branches)) ∧
            ∀ branches, schema'.get? key ≠ some (.array branches) := by
    intro key hShown hOther
    have hValue :=
      View.rel_of_map_seen
        (hSame.get? (View.shows_of_ne key hShown) hOther)
    generalize schema.get? key = value at hValue ⊢
    generalize schema'.get? key = value' at hValue ⊢
    cases hValue with
    | none => exact .inr ⟨by simp, by simp⟩
    | @some value value' hBranches =>
        cases value with
        | array branches =>
            rcases hBranches.exists_items with ⟨branches', rfl, hItems⟩
            exact .inl ⟨branches, branches', rfl, rfl, hItems⟩
        | _ =>
            cases value' with
            | array branches' => simp [View.Same, seen] at hBranches
            | _ => exact .inr ⟨by simp, by simp⟩
  unfold branches?
  rcases hKey "anyOf" (by decide) (by decide) with
    ⟨branches, branches', hFirst, hSecond, hItems⟩ | ⟨hNone, hNone'⟩
  · rw [hFirst, hSecond]
    exact .inr ⟨"anyOf", branches, branches', rfl, rfl, hItems⟩
  · rcases hKey "allOf" (by decide) (by decide) with
      ⟨branches, branches', hFirst, hSecond, hItems⟩ | ⟨hLast, hLast'⟩
    · rw [hFirst, hSecond]
      refine .inr ⟨"allOf", branches, branches', ?_, ?_, hItems⟩
      · split <;> simp_all
      · split <;> simp_all
    · refine .inl ⟨?_, ?_⟩
      · split <;> simp_all
      · split <;> simp_all

theorem respects_notNull :
    notNull.Respects likeness where
  silent := by decide
  finish := by
    intro schema schema' call call' _ _ hSame hCall _
    simp only [notNull]
    rcases branches_cases hSame with
      ⟨hNone, hNone'⟩ | ⟨key, branches, branches', hFirst, hSecond, hItems⟩
    · rw [hNone, hNone']
      exact hCall.fault _
    · rw [hFirst, hSecond]
      dsimp only
      have hKept :
          List.Forall₂ likeness.view.Same
            (branches.filter fun branch =>
              branch.typeName? != some "null")
            (branches'.filter fun branch =>
              branch.typeName? != some "null") :=
        List.rel_filter
          (fun _ _ hBranch => by simp [hBranch.typeName?])
          (View.sameItems_iff.mp hItems)
      generalize branches.filter _ = kept at hKept ⊢
      generalize branches'.filter _ = kept' at hKept ⊢
      have hUnion :
          likeness.view.Same
            (schema.mapFields fun fields =>
              fields.insert key (.array kept))
            (schema'.mapFields fun fields =>
              fields.insert key (.array kept')) :=
        hSame.mapFields fun _ _ hFields =>
          hFields.insert key
            (View.same_array (View.sameItems_iff.mpr hKept))
      cases hKept with
      | nil => exact .ok hUnion
      | cons hBranch hRest =>
          cases hRest with
          | nil => exact .ok hBranch
          | cons _ _ => exact .ok hUnion

------------------------------------------------------------
-- Methods That See All
------------------------------------------------------------

section

variable (hComplete : likeness.view.IsComplete)

include hComplete

theorem matches_option
    {schema schema' : Schema}
    {call call' : Call}
    (hSame : likeness.view.Same schema schema')
    (hCall : Call.Like likeness call call')
    (name : String) :
    Matches likeness.located likeness.view.Same (option schema name call)
      (option schema' name call') := by
  have hValue :=
    View.rel_of_map_seen (hSame.get?_of_complete hComplete name)
  unfold option
  generalize schema.get? name = value at hValue ⊢
  generalize schema'.get? name = value' at hValue ⊢
  cases hValue with
  | some hValue => exact .ok hValue
  | none => exact .error _ hCall.span

theorem matches_property
    {schema schema' : Schema}
    {call call' : Call}
    (hSame : likeness.view.Same schema schema')
    (hCall : Call.Like likeness call call')
    (name : String) :
    Matches likeness.located likeness.view.Same
      (property schema name call) (property schema' name call') := by
  have hNone :
      Matches likeness.located likeness.view.Same
        (.error ⟨.noProperties, call.span⟩)
        (.error ⟨.noProperties, call'.span⟩) :=
    .error _ hCall.span
  unfold property
  cases schema with
  | object fields =>
      rcases hSame.exists_fields with ⟨fields', rfl, hFields⟩
      simp only [Schema.fields?, Option.bind_some]
      rcases hFields.properties_cases with
        ⟨hFirst, hSecond⟩ |
          ⟨properties, properties', hFirst, hSecond, hProperties⟩
      · rw [hFirst, hSecond]
        exact hNone
      · rw [hFirst, hSecond]
        dsimp only
        have hValue :=
          View.rel_of_map_seen
            (hProperties.get?_of_complete hComplete name)
        generalize properties.get? name = value at hValue ⊢
        generalize properties'.get? name = value' at hValue ⊢
        cases hValue with
        | some hValue => exact .ok hValue
        | none => exact .error _ hCall.span
  | _ =>
      cases schema' with
      | object fields' => simp [View.Same, seen] at hSame
      | _ => exact hNone

theorem respects_get :
    get.Respects likeness where
  silent := by decide
  finish := by
    intro schema schema' call call' _ _ hSame hCall _
    refine hCall.oneString.bind ?_
    rintro name _ rfl
    exact matches_option hComplete hSame hCall name

theorem respects_prop :
    prop.Respects likeness where
  silent := by decide
  finish := by
    intro schema schema' call call' _ _ hSame hCall _
    refine hCall.oneString.bind ?_
    rintro name _ rfl
    exact matches_property hComplete hSame hCall name

theorem respects_propItems :
    propItems.Respects likeness where
  silent := by decide
  finish := by
    intro schema schema' call call' _ _ hSame hCall _
    refine hCall.oneString.bind ?_
    rintro name _ rfl
    refine (matches_property hComplete hSame hCall name).bind ?_
    intro value value' hValue
    exact matches_option hComplete hValue hCall "items"

theorem respects_pick :
    pick.Respects likeness where
  silent := by decide
  finish := by
    intro schema schema' call call' _ _ hSame hCall _
    refine hCall.atLeastOne.bind fun _ _ _ => ?_
    refine hCall.selection.bind ?_
    rintro selected _ rfl
    exact .ok (hSame.mapFields fun _ _ hFields =>
      hFields.pick hComplete selected)

end

------------------------------------------------------------
-- Tables
------------------------------------------------------------

/- All methods of a table respect a likeness. -/
def AllRespect
    (likeness : Likeness)
    (methods : OrderedMap Method) : Prop :=
  ∀ entry ∈ methods.toList, entry.2.Respects likeness

/- The name of a call is the same for calls that are alike. -/
theorem ownName_eq
    (call call' : Call)
    (hCall : Call.Like likeness call call') :
    ownName call = ownName call' :=
  hCall.name

/- Methods that are directives, too, respect every likeness. -/
theorem respects_shared :
    AllRespect likeness shared := by
  unfold AllRespect shared
  rw [OrderedMap.toList_of]
  simp only [List.forall_mem_cons, List.not_mem_nil, false_implies,
    implies_true, and_true]
  exact ⟨respects_schema _ _ _, respects_schema _ _ _,
    respects_schema _ _ _, respects_schema _ _ _,
    respects_number _ ownName_eq, respects_number _ ownName_eq,
    respects_schema _ _ _, respects_schema _ _ _, respects_required,
    respects_flag _ _, respects_text _ _, respects_text _ _⟩

/- All methods respect a likeness that sees all keys. -/
theorem respects_builtins
    (hComplete : likeness.view.IsComplete) :
    AllRespect likeness builtins := by
  unfold AllRespect builtins
  rw [OrderedMap.toList_of, List.forall_mem_append]
  refine ⟨?_, respects_shared⟩
  have hFixed :
      ∀ (kind : Schema.Kind) (key : String),
        (number kind fun _ => key).Respects likeness :=
    fun kind key => respects_number kind fun _ _ _ => rfl
  have hOwn :
      ∀ kind : Schema.Kind, (number kind ownName).Respects likeness :=
    fun kind => respects_number kind ownName_eq
  simp only [List.forall_mem_cons, List.not_mem_nil, false_implies,
    implies_true, and_true]
  exact ⟨respects_merge, respects_merge, respects_merge, respects_merge,
    respects_get hComplete, respects_set, respects_schema _ _ _,
    hOwn _, hOwn _, respects_pattern, respects_text _ _,
    hFixed _ _, hFixed _ _, hFixed _ _, hFixed _ _, hFixed _ _,
    respects_schema _ _ _, hOwn _, hOwn _, respects_flag _ _,
    respects_schema _ _ _, respects_schema _ _ _, hOwn _, hOwn _,
    respects_schema _ _ _, respects_prop hComplete,
    respects_pick hComplete, respects_propItems hComplete,
    respects_pick hComplete, respects_remove, respects_remove,
    respects_notRequired, respects_notRequired, respects_notNull⟩

end Method

------------------------------------------------------------
-- Compilers
------------------------------------------------------------

/- Whether a likeness relates calls at all. -/
def Likeness.RelatesCalls
    (likeness : Likeness) : Prop :=
  ∃ callee arguments note e',
    likeness.like ⟨.call callee arguments, note⟩ e'

/-
  The operations of a compiler respect a likeness. Only directives
  have to, if there are no calls.
-/
structure Compiler.Respects
    (likeness : Likeness)
    (compiler : Compiler) : Prop where
  directives :
    ∀ name method, compiler.directives.get? name = some method →
      method.Respects likeness
  methods :
    likeness.RelatesCalls →
      ∀ name method, compiler.methods.get? name = some method →
        method.Respects likeness
  functions :
    likeness.RelatesCalls →
      ∀ name function, compiler.functions.get? name = some function →
        function.Respects likeness

/- Without calls, the directives that are there from the start do. -/
theorem Compiler.respects_of_directives
    {likeness : Likeness}
    (hCalls : ¬ likeness.RelatesCalls)
    {compiler : Compiler}
    (hDirectives : compiler.directives = Method.directives) :
    compiler.Respects likeness where
  directives := by
    intro name method hGet
    rw [hDirectives] at hGet
    exact Method.respects_shared _ (OrderedMap.mem_of_get? hGet)
  methods := fun hRelates => absurd hRelates hCalls
  functions := fun hRelates => absurd hRelates hCalls

/- With calls, all operations that are there from the start do. -/
theorem Compiler.respects_builtin
    {likeness : Likeness}
    (hCalls : likeness.RelatesCalls → likeness.view.IsComplete)
    (version : Version) :
    Compiler.Respects likeness { version := version } where
  directives := by
    intro name method hGet
    exact Method.respects_shared _ (OrderedMap.mem_of_get? hGet)
  methods := by
    intro hRelates name method hGet
    exact Method.respects_builtins (hCalls hRelates) _
      (OrderedMap.mem_of_get? hGet)
  functions := by
    intro _ name function hGet
    cases hGet

end SchemaLang
