import SchemaLang.Proofs.Compile.Choosing
import SchemaLang.Proofs.Compile.Statements

/-
  The properties of an object literal, read back by a method and given to
  another object. What a method returns has no names, so that a map of
  properties that is returned has none called `title` or `description`:
  these properties are lost, and no others.

  Main declarations:
    * `Fields.unnamed` and `Fields.unnamed_eq_self_iff`
    * `Member.statesLast`
    * `Compile.outcome_propertiesOf` and `Compile.outcome_withProperties`
    * `Compile.properties_read_back_iff`
-/

namespace SchemaLang

------------------------------------------------------------
-- Maps Without Names
------------------------------------------------------------

namespace Fields

/- The entries without the two that name a schema. -/
def unnamed
    (fields : Fields) : Fields :=
  (fields.erase "title").erase "description"

theorem get?_unnamed
    (fields : Fields)
    (key : String) :
    fields.unnamed.get? key =
      if key = "title" ∨ key = "description" then none
      else fields.get? key := by
  unfold unnamed
  rw [OrderedMap.get?_erase, OrderedMap.get?_erase]
  by_cases hTitle : key = "title"
  · simp [hTitle]
  · by_cases hDescription : key = "description"
    · simp [hDescription]
    · simp [hTitle, hDescription, Ne.symm hTitle, Ne.symm hDescription]

/- No value is lost exactly if there are no names. -/
theorem get?_unnamed_eq_iff
    {fields : Fields} :
    (∀ key, fields.unnamed.get? key = fields.get? key) ↔
      "title" ∉ fields.keys ∧ "description" ∉ fields.keys := by
  rw [← OrderedMap.get?_eq_none_iff, ← OrderedMap.get?_eq_none_iff]
  constructor
  · intro hSame
    rw [← hSame, ← hSame, get?_unnamed, get?_unnamed]
    exact ⟨rfl, rfl⟩
  · rintro ⟨hTitle, hDescription⟩ key
    rw [get?_unnamed]
    split
    · rename_i hName
      rcases hName with rfl | rfl
      · exact hTitle.symm
      · exact hDescription.symm
    · rfl

/- And then nothing is lost at all. -/
theorem unnamed_eq_self_iff
    {fields : Fields} :
    fields.unnamed = fields ↔
      "title" ∉ fields.keys ∧ "description" ∉ fields.keys := by
  constructor
  · intro hSame
    rw [← get?_unnamed_eq_iff, hSame]
    exact fun _ => rfl
  · rintro ⟨hTitle, hDescription⟩
    unfold unnamed
    rw [OrderedMap.erase_of_not_mem hTitle,
      OrderedMap.erase_of_not_mem hDescription]

end Fields

------------------------------------------------------------
-- Names Of Properties
------------------------------------------------------------

/- Whether the last of the members with a name states a property. -/
def Member.statesLast
    (members : List Member)
    (name : String) : Bool :=
  ((members.filterMap outline?).filter
    fun written => written.1 == name).getLast?.any fun written => written.2.2

namespace Compile

variable {compiler : Compiler}
variable {expand : Expand}
variable {registry between after : Registry}

/- The properties of a literal are those that its members state last. -/
theorem mem_keys_iff_statesLast
    {members : List Member}
    {said : List Statement}
    {required : List String}
    {properties : Fields}
    (hSaid :
      outcome (statements compiler expand members) registry =
        (.ok said, after))
    (hReflected : Statement.Reflected said required properties)
    (name : String) :
    name ∈ OrderedMap.keys properties ↔
      Member.statesLast members name = true := by
  have hLast :
      ((said.map Statement.outline).filter
          fun written => written.1 == name).getLast? =
        (Statement.last? said name).map Statement.outline := by
    rw [List.filter_map, List.getLast?_map]
    rfl
  unfold Member.statesLast
  rw [hReflected.mem_properties, ← outline_of_statements hSaid, hLast]
  cases Statement.last? said name with
  | none => simp
  | some statement => simp [Statement.outline]

------------------------------------------------------------
-- Calls
------------------------------------------------------------

/- A call is taken as written by compiling it. -/
theorem literal_calling
    (receiver property : Expr)
    (args : List Expr)
    (middle called : Note) :
    literal compiler expand (calling receiver property args middle called) =
      expr compiler expand
        (calling receiver property args middle called) := by
  unfold calling
  rw [literal, expr]
  rfl

/- The call `receiver.get("properties")`. -/
def propertiesOf
    (receiver : Expr)
    (property argument middle called : Note) : Expr :=
  calling receiver ⟨.identifier "get", property⟩
    [⟨.string "properties", argument⟩] middle called

/- The call `receiver.set("properties", value)`. -/
def withProperties
    (receiver value : Expr)
    (property argument middle called : Note) : Expr :=
  calling receiver ⟨.identifier "set", property⟩
    [⟨.string "properties", argument⟩, value] middle called

section

variable (hMethods : compiler.methods = Method.builtins)
variable (property argument middle called : Note)

include hMethods

/- What is read is the map of properties without names. -/
theorem outcome_propertiesOf
    {receiver : Expr}
    {schema : Schema}
    {properties : Fields}
    (hReceiver :
      outcome (expr compiler expand receiver) registry =
        (.ok schema, after))
    (hProperties : schema.get? "properties" = some (.object properties)) :
    outcome
        (expr compiler expand
          (propertiesOf receiver property argument middle called))
        registry =
      (.ok (.object properties.unnamed), after) := by
  have hMethod : compiler.methods.get? "get" = some Method.get := by
    rw [hMethods]
    rfl
  have hFinish :
      Method.get.finish schema
          ⟨"get", [⟨.string "properties", argument⟩], called.span⟩ () =
        .ok (.object properties) := by
    have hOption :
        Method.get.finish schema
            ⟨"get", [⟨.string "properties", argument⟩], called.span⟩ () =
          Method.option schema "properties"
            ⟨"get", [⟨.string "properties", argument⟩], called.span⟩ := rfl
    rw [hOption, Method.option, hProperties]
  have hRun :
      Yields after
        (run compiler expand Method.get schema
          ⟨"get", [⟨.string "properties", argument⟩], called.span⟩)
        (.object properties) :=
    yields_run rfl (yields_evaluate_nothing _) hFinish
  exact outcome_calling hReceiver rfl hMethod hRun rfl middle

/- What is given replaces the properties, and the names are gone. -/
theorem outcome_withProperties
    {receiver value : Expr}
    {fields map : Fields}
    (hReceiver :
      outcome (expr compiler expand receiver) registry =
        (.ok (.object fields), between))
    (hValue :
      outcome (literal compiler expand value) between =
        (.ok (.object map), after)) :
    outcome
        (expr compiler expand
          (withProperties receiver value property argument middle called))
        registry =
      (.ok (.object
        (Fields.unnamed (fields.insert "properties" (.object map)))),
        after) := by
  have hMethod : compiler.methods.get? "set" = some Method.set := by
    rw [hMethods]
    rfl
  have hEntries :
      outcome
          (evaluate compiler expand .entries
            ⟨"set", [⟨.string "properties", argument⟩, value],
              called.span⟩)
          between =
        (.ok [("properties", .object map)], after) := by
    rw [evaluate, outcome_bind, outcome_check]
    dsimp only [andThen, Call.firstString, Call.need, Expr.string?]
    rw [outcome_bind, hValue]
    rfl
  have hRun :
      outcome
          (run compiler expand Method.set (.object fields)
            ⟨"set", [⟨.string "properties", argument⟩, value],
              called.span⟩)
          between =
        (.ok (.object (fields.insert "properties" (.object map))), after) :=
    outcome_run rfl hEntries rfl
  exact outcome_calling hReceiver rfl hMethod hRun rfl middle

end

------------------------------------------------------------
-- Reading Back
------------------------------------------------------------

/- The schema of a property within the entries of an object. -/
def propertySchema?
    (fields : Fields)
    (name : String) : Option Schema :=
  (fields.get? "properties").bind fun properties => properties.get? name

/-
  The properties of an object literal are read back without those called
  `title` and `description`, and so they are when they are given to
  another object, which keeps all else but its own names. No property is
  lost, in both cases, if and only if no member states one of these two
  in the end.
-/
theorem properties_read_back_iff
    (compiler : Compiler)
    (expand : Expand)
    (members : List Member)
    (note property argument middle called : Note)
    (registry after : Registry)
    (schema : Schema)
    (hMethods : compiler.methods = Method.builtins)
    (hOrdinary : ∀ member ∈ members, member.isOrdinary compiler = true)
    (hEnds :
      outcome (expr compiler expand ⟨.object members, note⟩) registry =
        (.ok schema, after)) :
    ∃ properties : Fields,
      schema.get? "properties" = some (.object properties) ∧
      outcome
          (expr compiler expand
            (propertiesOf ⟨.object members, note⟩ property argument middle
              called))
          registry =
        (.ok (.object properties.unnamed), after) ∧
      (properties.unnamed = properties ↔
        Member.statesLast members "title" = false ∧
          Member.statesLast members "description" = false) ∧
      ∀ (receiver : Expr) (before : Registry) (fields : Fields)
          (property' argument' middle' called' : Note),
        outcome (expr compiler expand receiver) before =
            (.ok (.object fields), registry) →
          ∃ transferred : Fields,
            outcome
                (expr compiler expand
                  (withProperties receiver
                    (propertiesOf ⟨.object members, note⟩ property argument
                      middle called) property' argument' middle' called'))
                before =
              (.ok (.object transferred), after) ∧
            (∀ key, key ≠ "properties" →
              transferred.get? key = fields.unnamed.get? key) ∧
            (∀ name,
              propertySchema? transferred name =
                properties.unnamed.get? name) ∧
            ((∀ name,
              propertySchema? transferred name =
                OrderedMap.get? properties name) ↔
              Member.statesLast members "title" = false ∧
                Member.statesLast members "description" = false) := by
  rcases reflected_object hOrdinary hEnds with
    ⟨said, found, between, required, properties, hSaid, -, hReflected, -,
      hProperties, -⟩
  have hNames :
      ("title" ∉ OrderedMap.keys properties ∧
          "description" ∉ OrderedMap.keys properties) ↔
        Member.statesLast members "title" = false ∧
          Member.statesLast members "description" = false := by
    rw [mem_keys_iff_statesLast hSaid hReflected,
      mem_keys_iff_statesLast hSaid hReflected, Bool.not_eq_true,
      Bool.not_eq_true]
  have hRead :=
    outcome_propertiesOf hMethods property argument middle called hEnds
      hProperties
  refine ⟨properties, hProperties, hRead,
    Fields.unnamed_eq_self_iff.trans hNames, ?_⟩
  intro receiver before fields property' argument' middle' called' hReceiver
  have hLiteral :
      outcome
          (literal compiler expand
            (propertiesOf ⟨.object members, note⟩ property argument middle
              called))
          registry =
        (.ok (.object properties.unnamed), after) := by
    unfold propertiesOf
    rw [literal_calling]
    exact hRead
  have hGiven :
      ∀ name,
        propertySchema?
            (Fields.unnamed
              (fields.insert "properties" (.object properties.unnamed)))
            name =
          properties.unnamed.get? name := by
    intro name
    rw [propertySchema?, Fields.get?_unnamed, OrderedMap.get?_insert]
    rfl
  refine ⟨_,
    outcome_withProperties hMethods property' argument' middle' called'
      hReceiver hLiteral, fun key hKey => ?_, hGiven, ?_⟩
  · rw [Fields.get?_unnamed, Fields.get?_unnamed, OrderedMap.get?_insert,
      if_neg (Ne.symm hKey)]
  · rw [← hNames, ← Fields.get?_unnamed_eq_iff]
    exact forall_congr' fun name => by rw [hGiven]

/- The properties of `{ a: int, ["b"]: int }`, given to `{}`. -/
theorem properties_read_back_iff_oneRequired :
    (∀ member ∈ oneRequired, member.isOrdinary {} = true) ∧
      Member.statesLast oneRequired "title" = false ∧
      Member.statesLast oneRequired "description" = false ∧
      outcome
          (compile {} (propertiesOf ⟨.object oneRequired, {}⟩ {} {} {} {}))
          Registry.initial =
        (.ok (.object twoIntegers), Registry.initial) ∧
      ∃ transferred : Fields,
        outcome
            (compile {}
              (withProperties ⟨.object [], {}⟩
                (propertiesOf ⟨.object oneRequired, {}⟩ {} {} {} {})
                {} {} {} {}))
            Registry.initial =
          (.ok (.object transferred), Registry.initial) ∧
        ∀ name,
          propertySchema? transferred name =
            twoIntegers.get? name := by
  have hOrdinary :
      ∀ member ∈ oneRequired, member.isOrdinary {} = true := by
    decide
  have hNames :
      Member.statesLast oneRequired "title" = false ∧
        Member.statesLast oneRequired "description" = false := by
    decide
  have hLiteral :
      Yields Registry.initial
        (expr {} (expandWithin {} Registry.initial.declaredNames)
          ⟨.object oneRequired, {}⟩)
        (.object (Reconciled.toFields
          (Reconciled.empty.putAll
            [⟨"a", true, integer⟩, ⟨"b", false, integer⟩]))) :=
    yields_object
      (.cons (states_int rfl false) (.cons (states_int rfl true) .nil)) rfl
  have hEmpty :
      Yields Registry.initial
        (expr {} (expandWithin {} Registry.initial.declaredNames)
          ⟨.object [], {}⟩)
        (.object (Reconciled.empty.putAll []).toFields) :=
    yields_object .nil rfl
  rcases properties_read_back_iff {} _ oneRequired {} {} {} {} {}
      Registry.initial Registry.initial _ rfl hOrdinary hLiteral with
    ⟨properties, hProperties, hRead, hSame, hTransfer⟩
  cases hProperties
  rcases hTransfer _ _ _ {} {} {} {} hEmpty with
    ⟨transferred, hGiven, -, -, hAll⟩
  rw [hSame.mpr hNames] at hRead
  refine ⟨hOrdinary, hNames.1, hNames.2, ?_, transferred, ?_,
    hAll.mpr hNames⟩
  · rw [outcome_compile]
    exact hRead
  · rw [outcome_compile]
    exact hGiven

/- The members `title: int, a: int`. -/
def titledMembers : List Member :=
  [naming "title" false "int", naming "a" false "int"]

/- A property that is called `title` is not read back. -/
theorem title_not_read_back :
    ∃ schema properties,
      outcome (compile {} ⟨.object titledMembers, {}⟩) Registry.initial =
        (.ok schema, Registry.initial) ∧
      schema.get? "properties" = some (.object properties) ∧
      properties = .of [("title", integer), ("a", integer)] ∧
      outcome
          (compile {}
            (propertiesOf ⟨.object titledMembers, {}⟩ {} {} {} {}))
          Registry.initial =
        (.ok (.object (.single "a" integer)), Registry.initial) := by
  have hLiteral :
      Yields Registry.initial
        (expr {} (expandWithin {} Registry.initial.declaredNames)
          ⟨.object titledMembers, {}⟩)
        (.object (Reconciled.toFields
          (Reconciled.empty.putAll
            [⟨"title", true, integer⟩, ⟨"a", true, integer⟩]))) :=
    yields_object
      (.cons (states_int rfl false) (.cons (states_int rfl false) .nil)) rfl
  refine ⟨_, _, yields_compile hLiteral, rfl, rfl, ?_⟩
  rw [outcome_compile]
  exact outcome_propertiesOf rfl {} {} {} {} hLiteral rfl

end Compile

end SchemaLang
