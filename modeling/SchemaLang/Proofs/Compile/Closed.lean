import SchemaLang.Compile.Declared
import SchemaLang.Proofs.Compile.Ensures
import SchemaLang.Proofs.Compile.Members
import SchemaLang.Proofs.Operation.Directives
import SchemaLang.Proofs.Schema.Closed

/-
  Required names have properties: merging, choosing properties and
  compiling object literals give schemas that are closed.

  Main declarations:
    * `Fields.IsClosedObject`
    * `Compile.Always` and `Compile.always_memberList`
    * `Compile.required_has_properties`
-/

namespace SchemaLang

------------------------------------------------------------
-- Closed Objects
------------------------------------------------------------

/- An object whose required names have properties. -/
structure Fields.IsClosedObject
    (fields : Fields) : Prop where
  type : fields.get? "type" = some (.string "object")
  closed : fields.IsClosed

namespace Fields.IsClosedObject

variable {fields : Fields}

theorem typeName?
    (hObject : fields.IsClosedObject) :
    (Schema.object fields).typeName? = some "object" :=
  Schema.typeName?_eq_some_iff.mpr hObject.type

theorem skeleton :
    IsClosedObject Fields.skeleton :=
  ⟨rfl, by decide⟩

/- Only three keys are looked at. -/
theorem congr
    {fields' : Fields}
    (hObject : fields.IsClosedObject)
    (hSame :
      ∀ key ∈ ["type", "required", "properties"],
        fields'.get? key = fields.get? key) :
    IsClosedObject fields' := by
  refine ⟨?_, hObject.closed.congr (hSame _ (by simp)) (hSame _ (by simp))⟩
  rw [hSame _ (by simp)]
  exact hObject.type

theorem insert
    (hObject : fields.IsClosedObject)
    {key : String}
    (hKey : key ∉ ["type", "required", "properties"])
    (value : Schema) :
    IsClosedObject (fields.insert key value) := by
  apply hObject.congr
  intro other hOther
  have hNe : key ≠ other := by
    intro hSame
    exact hKey (hSame ▸ hOther)
  rw [OrderedMap.get?_insert, if_neg hNe]

theorem erase
    (hObject : fields.IsClosedObject)
    {key : String}
    (hKey : key ∉ ["type", "required", "properties"]) :
    IsClosedObject (fields.erase key) := by
  apply hObject.congr
  intro other hOther
  have hNe : key ≠ other := by
    intro hSame
    exact hKey (hSame ▸ hOther)
  rw [OrderedMap.get?_erase, if_neg hNe]

theorem applyEntry
    (hObject : fields.IsClosedObject)
    {key : String}
    (hKey : key ∉ ["type", "required", "properties"])
    (value : Schema) :
    (applyEntry fields key value).IsClosedObject := by
  unfold Fields.applyEntry
  split
  · exact hObject.erase hKey
  · exact hObject.insert hKey value

theorem stated
    (hObject : fields.IsClosedObject)
    (name : String)
    (required : Bool)
    (value : Schema)
    (comments : Comments)
    (previous : Option Member) :
    let described :=
      Member.describe (toggleRequired fields name required) value comments
        previous
    (insertProperty described.1 name described.2).IsClosedObject := by
  refine ⟨?_, hObject.closed.stated name required value comments previous⟩
  rcases Member.describe_cases (toggleRequired fields name required) value
      comments previous with ⟨others, own, hSame, hOthers⟩
  rw [hSame]
  unfold Fields.insertProperty
  dsimp only
  rw [OrderedMap.get?_insert, if_neg (by decide)]
  rcases hOthers with rfl | ⟨other, first, rfl⟩
  · rw [get?_toggleRequired _ _ _ (by decide)]
    exact hObject.type
  · rw [get?_describeProperty _ _ _ (by decide),
      get?_toggleRequired _ _ _ (by decide)]
    exact hObject.type

theorem unstated
    (hObject : fields.IsClosedObject)
    (name : String) :
    (removeProperty (toggleRequired fields name false)
      name).IsClosedObject := by
  refine ⟨?_, hObject.closed.unstated name⟩
  have hType := hObject.type
  rw [← get?_toggleRequired fields name false (by decide)] at hType
  unfold removeProperty
  split
  · rw [OrderedMap.get?_insert, if_neg (by decide)]
    exact hType
  · exact hType

theorem addPatterns
    (hObject : fields.IsClosedObject)
    (patterns : Fields) :
    (addPatterns fields patterns).IsClosedObject := by
  unfold Fields.addPatterns
  split
  · exact hObject.insert (by decide) _
  · exact hObject.insert (by decide) _

theorem merge
    (hObject : fields.IsClosedObject)
    {source : Schema}
    {span : Span}
    {merged : Fields}
    (hMerges : Fields.merge fields [source] span = .ok merged) :
    merged.IsClosedObject :=
  ⟨get?_type_merge hObject.type hMerges,
    hObject.closed.merge hObject.typeName? hMerges⟩

theorem describe
    (hObject : fields.IsClosedObject)
    (comments : List Comment) :
    ∃ described,
      (Schema.object fields).describe comments = .object described ∧
        IsClosedObject described := by
  rcases Schema.exists_describe_object fields comments with
    ⟨described, hDescribed, hSame⟩
  refine ⟨described, hDescribed, hObject.congr ?_⟩
  simp [hSame]

end Fields.IsClosedObject

/- A schema that is a closed object. -/
def Schema.IsClosedObject
    (schema : Schema) : Prop :=
  ∃ fields, schema = .object fields ∧ Fields.IsClosedObject fields

namespace Schema.IsClosedObject

variable {schema : Schema}

theorem iff :
    schema.IsClosedObject ↔
      schema.IsClosed ∧ schema.typeName? = some "object" := by
  cases schema with
  | object fields =>
      rw [Schema.typeName?_eq_some_iff]
      constructor
      · intro hObject
        rcases hObject with ⟨_, hSame, hObject⟩
        cases hSame
        exact ⟨hObject.closed, hObject.type⟩
      · intro hBoth
        exact ⟨fields, rfl, hBoth.2, hBoth.1⟩
  | _ =>
      constructor
      · intro hObject
        rcases hObject with ⟨_, hSame, -⟩
        cases hSame
      · intro hBoth
        exact hBoth.1.elim

theorem mapFields
    {change : Fields → Fields}
    (hObject : schema.IsClosedObject)
    (hChange :
      ∀ fields, Fields.IsClosedObject fields →
        Fields.IsClosedObject (change fields)) :
    (schema.mapFields change).IsClosedObject := by
  rcases hObject with ⟨fields, rfl, hFields⟩
  exact ⟨change fields, rfl, hChange fields hFields⟩

theorem stripNames
    (hObject : schema.IsClosedObject) :
    schema.stripNames.IsClosedObject :=
  hObject.mapFields fun _ hFields =>
    (hFields.erase (by decide)).erase (by decide)

end Schema.IsClosedObject

------------------------------------------------------------
-- Methods
------------------------------------------------------------

/- A schema is of the kind of objects only if it states that type. -/
theorem Schema.typeName?_of_kind
    {schema : Schema}
    (hKind : schema.kind = .object) :
    schema.typeName? = some "object" := by
  have hKeys : ∀ fields, Kind.ofKeys fields ≠ .object := by
    intro fields
    unfold Kind.ofKeys
    split_ifs <;> nofun
  have hTypes :
      ∀ type, Kind.ofType? type = some .object → type = "object" := by
    intro type hType
    unfold Kind.ofType? at hType
    split_ifs at hType with hObject
    · exact hObject
    all_goals cases hType
  unfold Schema.kind at hKind
  split at hKind
  · rename_i fields
    cases hBind : (Schema.object fields).typeName?.bind Kind.ofType? with
    | none =>
        rw [hBind] at hKind
        exact absurd hKind (hKeys fields)
    | some kind =>
        rw [hBind, Option.getD_some] at hKind
        rw [hKind] at hBind
        rcases Option.bind_eq_some_iff.mp hBind with ⟨type, hType, hOf⟩
        rw [hType, hTypes type hOf]
  · cases hKind

/- The methods that choose properties or stop requiring them. -/
def Method.choosers : List String :=
  ["props", "pick", "remove", "omit", "notRequired", "optional"]

/- A method is for objects, and takes closed ones to closed ones. -/
structure Method.KeepsClosed
    (method : Method) : Prop where
  receiver : method.receiver = some .object
  finish :
    ∀ {schema call result answer},
      schema.IsClosedObject →
        method.finish schema call result = .ok answer →
          answer.IsClosedObject

namespace Method

theorem keepsClosed_pick :
    pick.KeepsClosed where
  receiver := rfl
  finish := by
    intro schema call result answer hObject hFinish
    rcases exists_of_bind_eq_ok hFinish with ⟨_, -, hFinish⟩
    rcases exists_of_bind_eq_ok hFinish with ⟨selected, -, hAnswer⟩
    cases hAnswer
    refine hObject.mapFields fun fields hFields => ⟨?_, ?_⟩
    · rw [Fields.pick_eq_choosing, Fields.get?_choosing _ _ _ (by decide)]
      exact hFields.type
    · exact hFields.closed.pick selected

theorem keepsClosed_remove :
    remove.KeepsClosed where
  receiver := rfl
  finish := by
    intro schema call result answer hObject hFinish
    rcases exists_of_bind_eq_ok hFinish with ⟨_, -, hFinish⟩
    rcases exists_of_bind_eq_ok hFinish with ⟨names, -, hAnswer⟩
    cases hAnswer
    refine hObject.mapFields fun fields hFields => ⟨?_, ?_⟩
    · rw [Fields.drop_eq_choosing, Fields.get?_choosing _ _ _ (by decide)]
      exact hFields.type
    · exact hFields.closed.drop names

theorem keepsClosed_notRequired :
    notRequired.KeepsClosed where
  receiver := rfl
  finish := by
    intro schema call result answer hObject hFinish
    have hDismiss :
        ∀ names,
          (schema.mapFields fun fields =>
            Fields.demandAll fields names false).IsClosedObject := by
      intro names
      refine hObject.mapFields fun fields hFields => ⟨?_, ?_⟩
      · unfold Fields.demandAll Fields.setRequired
        rw [OrderedMap.get?_insert, if_neg (by decide)]
        exact hFields.type
      · exact hFields.closed.dismiss names
    rcases exists_of_bind_eq_ok hFinish with ⟨requirement, -, hAnswer⟩
    cases requirement with
    | list names =>
        cases hAnswer
        exact hDismiss names
    | names names =>
        cases hAnswer
        exact hDismiss names

theorem keepsClosed_of_chooser
    {name : String}
    {method : Method}
    (hName : name ∈ choosers)
    (hGet : builtins.get? name = some method) :
    method.KeepsClosed := by
  have hChoosers :
      ∀ name ∈ choosers,
        builtins.get? name = some pick ∨
          builtins.get? name = some remove ∨
            builtins.get? name = some notRequired := by
    simp only [choosers, List.forall_mem_cons, List.not_mem_nil,
      false_implies, implies_true, and_true]
    exact ⟨.inl rfl, .inl rfl, .inr (.inl rfl), .inr (.inl rfl),
      .inr (.inr rfl), .inr (.inr rfl)⟩
  rcases hChoosers name hName with hSame | hSame | hSame
  · rw [hSame] at hGet
    cases hGet
    exact keepsClosed_pick
  · rw [hSame] at hGet
    cases hGet
    exact keepsClosed_remove
  · rw [hSame] at hGet
    cases hGet
    exact keepsClosed_notRequired

end Method

namespace Compile

variable {compiler : Compiler}
variable {expand : Expand}
variable {registry after : Registry}

/- A call of a method compiles the receiver, and then runs the method. -/
theorem expr_call_method
    {object property : Expr}
    {arguments : List Expr}
    {middle note : Note}
    {name : String}
    {method : Method}
    (hName : property.identifier? = some name)
    (hGet : compiler.methods.get? name = some method) :
    expr compiler expand
        ⟨.call ⟨.member object property false, middle⟩ arguments, note⟩ = (do
      let receiver ← expr compiler expand object
      let result ←
        run compiler expand method receiver ⟨name, arguments, note.span⟩
      if result.isFalsy then fail (.noSchema name) note.span
      else pure result.stripNames) := by
  rw [expr, call, hName]
  dsimp only
  rw [hGet]

/- The result of a method is what it has finished with, without names. -/
theorem run_of_call
    {object property : Expr}
    {arguments : List Expr}
    {middle note : Note}
    {name : String}
    {receiver answer : Schema}
    {between : Registry}
    (hName : property.identifier? = some name)
    (hReceiver :
      outcome (expr compiler expand object) registry =
        (.ok receiver, between))
    (hCall :
      outcome
          (expr compiler expand
            ⟨.call ⟨.member object property false, middle⟩ arguments,
              note⟩) registry =
        (.ok answer, after)) :
    ∃ method result,
      compiler.methods.get? name = some method ∧
        outcome
            (run compiler expand method receiver
              ⟨name, arguments, note.span⟩) between =
          (.ok result, after) ∧
        answer = result.stripNames := by
  cases hGet : compiler.methods.get? name with
  | none =>
      rw [expr, call, hName] at hCall
      dsimp only at hCall
      rw [hGet, outcome_bind, hReceiver] at hCall
      cases hCall
  | some method =>
      rw [expr_call_method hName hGet, outcome_bind, hReceiver] at hCall
      dsimp only [andThen] at hCall
      rw [outcome_bind] at hCall
      rcases andThen_eq_ok hCall with ⟨result, last, hRun, hRest⟩
      split at hRest
      · cases hRest
      · cases hRest
        exact ⟨method, result, rfl, hRun, rfl⟩

------------------------------------------------------------
-- Object Literals
------------------------------------------------------------

/- A result is good, whatever the names stand for. -/
abbrev Always {α : Type}
    (good : α → Prop) : Compile α → Prop :=
  Ensures (fun _ => True) good

end Compile

/-
  Whether a member keeps an object closed: it neither lists required
  names nor sets keys as they are written.
-/
def Member.isClosing : Member → Bool
  | property key _ _ _ _ => key.word? != some "$required"
  | spread ⟨.spread ⟨.unary .not ⟨.unary .not ⟨.object _, _⟩, _⟩, _⟩, _⟩ =>
    false
  | spread _ => true

namespace Compile

section Literals

variable (version : Version)
variable (expand : Expand)
variable {fields : Fields}

theorem always_spreadInto
    {argument : Expr}
    (hOther :
      ∀ members inner middle note,
        argument =
          ⟨.unary .not ⟨.unary .not ⟨.object members, inner⟩, middle⟩,
            note⟩ → False)
    (hFields : fields.IsClosedObject) :
    Always Fields.IsClosedObject
      (spreadInto { version := version } expand fields argument) := by
  rw [spreadInto]
  · refine (Ensures.unknown _).bind fun source _ => ?_
    exact .check fun merged hMerges => hFields.merge hMerges
  · exact hOther

theorem always_directive
    {entry : String × Method}
    (hEntry : entry ∈ Method.shared.toList)
    (hName : entry.1 ≠ "required")
    (value : Expr)
    (span : Span)
    (hFields : fields.IsClosedObject) :
    Always Schema.IsClosedObject
      (run { version := version } expand entry.2 (.object fields)
        ⟨entry.1, [value], span⟩) := by
  rw [run]
  refine .checked fun _ _ => ?_
  refine (Ensures.unknown _).bind fun result _ => ?_
  refine .check fun answer hAnswer => ?_
  rcases Method.setsKey_shared entry hEntry rfl hAnswer with
    ⟨key, given, hKey, hRequired, rfl⟩
  refine ⟨_, rfl, hFields.applyEntry ?_ given⟩
  simp only [Method.fixedKeys, List.mem_cons, List.not_mem_nil, or_false,
    not_or] at hKey ⊢
  exact ⟨hKey.1, fun hSame => hName (hRequired hSame), hKey.2.1⟩

theorem always_propertyInto
    {key : Key}
    (hKey : key.word? ≠ some "$required")
    (previous : Option Member)
    (computed : Bool)
    (value : Expr)
    (span : Span)
    (comments : Comments)
    (hFields : fields.IsClosedObject) :
    Always Fields.IsClosedObject
      (propertyInto { version := version } expand previous fields key
        computed value span comments) := by
  rcases key.pattern_or_word with
    ⟨pattern, flags, rfl⟩ | ⟨name, hWord⟩ | hNameless
  · rw [propertyInto_pattern]
    exact .pure hFields
  · cases hDirective : directive? { version := version } name with
    | none =>
        rw [propertyInto_ordinary hWord hDirective, ordinaryInto]
        split
        · exact .pure (hFields.unstated name)
        · refine (Ensures.unknown _).bind fun schema _ => .pure ?_
          exact hFields.stated name (!computed) schema comments previous
    | some entry =>
        rcases mem_of_directive? hDirective with ⟨hEntry, rfl⟩
        have hName : entry.1 ≠ "required" := by
          intro hSame
          rw [hWord, hSame] at hKey
          exact hKey rfl
        rw [propertyInto_directive hWord hDirective]
        refine (always_directive version expand hEntry hName value
          span hFields).bind fun result hResult => ?_
        rcases hResult with ⟨after, rfl, hAfter⟩
        exact .pure hAfter
  · rcases hNameless span with ⟨error, hError⟩
    rw [propertyInto_nameless hError]
    exact .throw error

theorem always_memberStep
    {member : Member}
    (hMember : member.isClosing = true)
    (previous : Option Member)
    (hFields : fields.IsClosedObject) :
    Always Fields.IsClosedObject
      (memberStep { version := version } expand previous fields
        member) := by
  cases member with
  | property key computed value span comments =>
      have hKey : key.word? ≠ some "$required" := by
        simpa [Member.isClosing] using hMember
      exact always_propertyInto version expand hKey previous
        computed value span comments hFields
  | spread e =>
      rcases spread_or_other e with ⟨argument, note, rfl⟩ | hPlain
      · apply always_spreadInto version expand _ hFields
        rintro members inner middle note rfl
        cases hMember
      · rw [memberStep]
        · exact .fail _ _
        · exact hPlain

/- Each member leaves a closed object behind, so all of them do. -/
theorem always_memberList
    {members : List Member}
    (hMembers : ∀ member ∈ members, member.isClosing = true)
    (previous : Option Member)
    (hFields : fields.IsClosedObject) :
    Always Fields.IsClosedObject
      (memberList { version := version } expand previous fields
        members) := by
  induction members generalizing previous fields with
  | nil =>
      rw [memberList]
      exact .pure hFields
  | cons member rest ih =>
      rw [List.forall_mem_cons] at hMembers
      rw [memberList_cons]
      refine (always_memberStep version expand hMembers.1 previous
        hFields).bind fun fields hFields => ?_
      exact ih hMembers.2 (some member) hFields

theorem always_object
    {members : List Member}
    (hMembers : ∀ member ∈ members, member.isClosing = true)
    (note : Note) :
    Always Schema.IsClosedObject
      (expr { version := version } expand ⟨.object members, note⟩) := by
  rw [expr]
  refine (always_memberList version expand hMembers none
    .skeleton).bind fun fields hFields => ?_
  simp only [pure_bind]
  split
  · refine (Ensures.unknown _).bind fun patterns _ => .pure ?_
    exact (hFields.addPatterns patterns).describe _
  · exact .pure (hFields.describe _)

end Literals

------------------------------------------------------------
-- Required Names
------------------------------------------------------------

/- Sources need not be closed themselves. -/
theorem isClosed_merge
    {target merged : Schema}
    {sources : List Schema}
    {method : String}
    {span : Span}
    (hType : target.typeName? = some "object")
    (hClosed : target.IsClosed)
    (hMerges : target.merge sources method span = .ok merged) :
    merged.IsClosed ∧ merged.typeName? = some "object" := by
  cases target with
  | object fields =>
      rcases exists_of_bind_eq_ok hMerges with ⟨entries, hEntries, hResult⟩
      cases hResult
      refine ⟨Fields.IsClosed.merge hClosed hType hEntries, ?_⟩
      exact Schema.typeName?_eq_some_iff.mpr
        (Fields.get?_type_merge (Schema.typeName?_eq_some_iff.mp hType)
          hEntries)
  | _ => cases hMerges

/- The method refuses a receiver that is no object. -/
theorem isClosed_call
    {version : Version}
    {expand : Expand}
    {object property : Expr}
    {arguments : List Expr}
    {middle note : Note}
    {registry between after : Registry}
    {receiver answer : Schema}
    (hName : property.identifier?.any Method.choosers.contains = true)
    (hReceiver :
      outcome (expr { version := version } expand object) registry =
        (.ok receiver, between))
    (hClosed : receiver.IsClosed)
    (hCall :
      outcome
          (expr { version := version } expand
            ⟨.call ⟨.member object property false, middle⟩ arguments,
              note⟩) registry =
        (.ok answer, after)) :
    answer.IsClosed ∧ answer.typeName? = some "object" := by
  cases hProperty : property.identifier? with
  | none =>
      rw [hProperty] at hName
      cases hName
  | some name =>
      rw [hProperty] at hName
      have hChooser : name ∈ Method.choosers := by
        simpa using hName
      rcases run_of_call hProperty hReceiver hCall with
        ⟨method, result, hGet, hRun, rfl⟩
      have hKeeps := Method.keepsClosed_of_chooser hChooser hGet
      rcases finish_of_run hRun with ⟨hAdmits, given, hFinish⟩
      have hKind : receiver.kind = .object := by
        unfold Method.admits at hAdmits
        rw [hKeeps.receiver] at hAdmits
        dsimp only at hAdmits
        split at hAdmits
        · assumption
        · cases hAdmits
      have hObject :=
        Schema.IsClosedObject.iff.mpr
          ⟨hClosed, Schema.typeName?_of_kind hKind⟩
      exact Schema.IsClosedObject.iff.mp
        (hKeeps.finish hObject hFinish).stripNames

theorem isClosed_object
    {version : Version}
    {expand : Expand}
    {registry after : Registry}
    {members : List Member}
    {note : Note}
    {schema : Schema}
    (hMembers : ∀ member ∈ members, member.isClosing = true)
    (hEnds :
      outcome
          (expr { version := version } expand ⟨.object members, note⟩)
          registry =
        (.ok schema, after)) :
    schema.IsClosed ∧ schema.typeName? = some "object" := by
  have hClosed :=
    always_object version expand hMembers note registry trivial
  rw [hEnds] at hClosed
  exact Schema.IsClosedObject.iff.mp (hClosed.2 schema rfl)

/-
  Each required name has a property: merging keeps a closed object
  closed, whatever the sources are; so do the methods that choose
  properties or stop requiring them; and an object literal is compiled
  to a closed object, unless it lists required names or sets keys as
  they are written.
-/
theorem required_has_properties
    (version : Version) :
    (∀ (target merged : Schema) sources method span,
      target.typeName? = some "object" →
        target.IsClosed →
          target.merge sources method span = .ok merged →
            merged.IsClosed ∧ merged.typeName? = some "object") ∧
      (∀ expand object (property : Expr) middle arguments note registry
          (receiver answer : Schema) between after,
        property.identifier?.any Method.choosers.contains = true →
          outcome (expr { version := version } expand object) registry =
              (.ok receiver, between) →
            receiver.IsClosed →
              outcome
                  (expr { version := version } expand
                    ⟨.call ⟨.member object property false, middle⟩
                      arguments, note⟩) registry =
                (.ok answer, after) →
              answer.IsClosed ∧ answer.typeName? = some "object") ∧
      ∀ expand (registry after : Registry) (members : List Member) note
          (schema : Schema),
        (∀ member ∈ members, member.isClosing = true) →
          outcome
              (expr { version := version } expand
                ⟨.object members, note⟩) registry =
            (.ok schema, after) →
          schema.IsClosed ∧ schema.typeName? = some "object" := by
  refine ⟨?_, ?_, ?_⟩
  · intro target merged sources method span hType hClosed hMerges
    exact isClosed_merge hType hClosed hMerges
  · intro expand object property middle arguments note registry receiver
      answer between after hName hReceiver hClosed hCall
    exact isClosed_call hName hReceiver hClosed hCall
  · intro expand registry after members note schema hMembers hEnds
    exact isClosed_object hMembers hEnds

/- An object that requires `q` without having such a property. -/
def looseSchema : Schema :=
  .object (Fields.ofProperties ["x", "q"]
    (.single "x" (Registry.typed "integer" [])))

/- An object that requires one of its two properties. -/
def tightSchema : Schema :=
  .object (Fields.ofProperties ["a"]
    (.of
      [("a", Registry.typed "string" []),
        ("b", Registry.typed "string" [])]))

/- Both objects, with names. -/
def looseRegistry : Registry :=
  (Registry.initial.define "Loose" looseSchema).define "Tight" tightSchema

/- `Tight.pick({ a: "z" })`. -/
def renamedObject : Expr :=
  ⟨.call
    ⟨.member ⟨.identifier "Tight", {}⟩ ⟨.identifier "pick", {}⟩ false, {}⟩
    [⟨.object [.property (.identifier "a") false ⟨.string "z", {}⟩ {} {}],
      {}⟩], {}⟩

/- `{ a: int, ...Loose }`. -/
def tightenedObject : Expr :=
  ⟨.object
    [.property (.identifier "a") false ⟨.identifier "int", {}⟩ {} {},
      .spread ⟨.spread ⟨.identifier "Loose", {}⟩, {}⟩], {}⟩

theorem outcome_tight :
    ∃ receiver,
      outcome
          (expr {} (expandWithin {} []) ⟨.identifier "Tight", {}⟩)
          looseRegistry =
        (.ok receiver, looseRegistry) ∧ receiver.IsClosed := by
  rw [expr, resolve]
  exact ⟨_, rfl, by decide⟩

theorem outcome_renamedObject :
    ∃ answer,
      outcome (expr {} (expandWithin {} []) renamedObject) looseRegistry =
        (.ok answer, looseRegistry) := by
  have hGet : Method.builtins.get? "pick" = some Method.pick := rfl
  unfold renamedObject
  rw [expr_call_method rfl hGet, expr, resolve]
  simp only [run, Method.pick, evaluate]
  exact ⟨_, rfl⟩

theorem outcome_tightenedObject :
    ∃ schema,
      outcome (expr {} (expandWithin {} []) tightenedObject)
          looseRegistry =
        (.ok schema, looseRegistry) := by
  simp only [tightenedObject, expr, memberList, propertyInto, spreadInto,
    run, resolve, Key.propertyName, Expr.referenceName]
  exact ⟨_, rfl⟩

/- A source that is not closed does no harm, and `q` is not required. -/
theorem required_has_properties_loose :
    ¬looseSchema.IsClosed ∧
      (∃ merged,
        tightSchema.merge [looseSchema] "merge" {} = .ok merged ∧
          merged.IsClosed) ∧
      (∃ answer,
        outcome (expr {} (expandWithin {} []) renamedObject)
            looseRegistry =
          (.ok answer, looseRegistry) ∧ answer.IsClosed) ∧
      ∃ schema,
        outcome (expr {} (expandWithin {} []) tightenedObject)
            looseRegistry =
          (.ok schema, looseRegistry) ∧ schema.IsClosed := by
  rcases required_has_properties .draft07 with ⟨hMerge, hCall, hObject⟩
  rcases outcome_tight with ⟨receiver, hReceiver, hClosed⟩
  rcases outcome_renamedObject with ⟨answer, hAnswer⟩
  rcases outcome_tightenedObject with ⟨schema, hSchema⟩
  refine ⟨by decide, ⟨_, rfl, ?_⟩, ⟨answer, hAnswer, ?_⟩, schema, hSchema,
    ?_⟩
  · exact (hMerge tightSchema _ [looseSchema] "merge" {} rfl (by decide)
      rfl).1
  · exact (hCall _ _ _ _ _ _ _ _ _ _ _ rfl hReceiver hClosed hAnswer).1
  · exact (hObject _ _ _ _ _ _ (by decide) hSchema).1

end Compile

end SchemaLang
