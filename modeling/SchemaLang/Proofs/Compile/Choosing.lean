import SchemaLang.Proofs.Compile.Spreading
import SchemaLang.Proofs.Operation.Choosing

/-
  Methods that pick, drop or require properties, called on an object
  literal. What they give is what a literal gives that has the members
  as they are to be.

  Main declarations:
    * `Member.chosen`, `Member.isNamed` and `Member.demanded`
    * `Compile.States.chosen`, `Compile.States.isNamed_eq` and
      `Compile.States.demanded`
    * `Compile.yields_calling`
    * `Compile.CompilesLike`
    * `Compile.choosing_agrees_literal`
-/

namespace SchemaLang

------------------------------------------------------------
-- Members
------------------------------------------------------------

namespace Member

/- A member under the name that is selected for its own. -/
def chosen
    (selected : Call.Selection) : Member → Option Member
  | property key computed value span comments => do
    let name ← key.word?
    let renamed ← selected.get? name
    pure (property (.string renamed) computed value span comments)
  | spread _ => none

/- Whether a member has one of some names. -/
def isNamed
    (names : List String)
    (member : Member) : Bool :=
  member.word?.any names.contains

/- A member that is computed or not as it is wanted, if it is named. -/
def demanded
    (names : List String)
    (wanted : Bool) : Member → Member
  | property key computed value span comments =>
    property key
      (if key.word?.any names.contains then !wanted else computed) value
      span comments
  | spread e => spread e

end Member

namespace Compile

variable {compiler : Compiler}
variable {expand : Expand}
variable {registry after : Registry}
variable {members : List Member}
variable {said : List Stated}

namespace States

variable {member : Member}
variable {stated : Stated}

/- What is stated under another name. -/
theorem chosen
    (hStates : States compiler expand registry member stated)
    {selected : Call.Selection}
    (hPlain :
      ∀ renamed, selected.get? stated.name = some renamed →
        (Key.string renamed).isPlain = true) :
    Option.Rel (States compiler expand registry) (member.chosen selected)
      (stated.chosen selected) := by
  cases hStates with
  | @property key name value schema computed span hKey hWord hDefined
      hValue =>
      unfold Member.chosen Stated.chosen
      dsimp only at hPlain ⊢
      rw [hWord, Option.bind_eq_bind, Option.bind_some]
      cases hGet : selected.get? name with
      | none => exact .none
      | some renamed =>
          exact .some
            (.property computed span (hPlain renamed hGet) rfl hDefined
              hValue)

theorem isNamed_eq
    (hStates : States compiler expand registry member stated)
    (names : List String) :
    member.isNamed names = names.contains stated.name := by
  unfold Member.isNamed
  rw [hStates.word?_eq, Option.any_some]

/- What is stated as required, or as optional. -/
theorem demanded
    (hStates : States compiler expand registry member stated)
    (names : List String)
    (wanted : Bool) :
    States compiler expand registry (member.demanded names wanted)
      (stated.demanded names wanted) := by
  cases hStates with
  | @property key name value schema computed span hKey hWord hDefined
      hValue =>
      unfold Member.demanded Stated.demanded
      dsimp only
      rw [hWord, Option.any_some]
      by_cases hNamed : names.contains name = true
      · rw [if_pos hNamed, if_pos hNamed]
        have hChanged :=
          States.property (!wanted) span hKey hWord hDefined hValue
        rwa [Bool.not_not] at hChanged
      · rw [if_neg hNamed, if_neg hNamed]
        exact .property computed span hKey hWord hDefined hValue

end States

section

variable (hStates :
  List.Forall₂ (States compiler expand registry) members said)

include hStates

theorem states_chosen
    {selected : Call.Selection}
    (hPlain :
      ∀ name ∈ said.map Stated.name, ∀ renamed,
        selected.get? name = some renamed →
          (Key.string renamed).isPlain = true) :
    List.Forall₂ (States compiler expand registry)
      (members.filterMap (Member.chosen selected))
      (said.filterMap (Stated.chosen selected)) := by
  induction hStates with
  | nil => exact .nil
  | @cons member stated _ _ hFirst _ ih =>
      rw [List.map_cons, List.forall_mem_cons] at hPlain
      have hChosen := hFirst.chosen hPlain.1
      rw [List.filterMap_cons, List.filterMap_cons]
      generalize member.chosen selected = member',
        stated.chosen selected = stated' at hChosen
      cases hChosen with
      | none => exact ih hPlain.2
      | some hChosen => exact .cons hChosen (ih hPlain.2)

theorem states_unnamed
    (names : List String) :
    List.Forall₂ (States compiler expand registry)
      (members.filter fun member => !member.isNamed names)
      (said.filter fun stated => !names.contains stated.name) := by
  refine List.rel_filter ?_ hStates
  intro member stated hFirst
  dsimp only
  rw [hFirst.isNamed_eq]

theorem states_demanded
    (names : List String)
    (wanted : Bool) :
    List.Forall₂ (States compiler expand registry)
      (members.map (Member.demanded names wanted))
      (said.map (Stated.demanded names wanted)) :=
  List.rel_map (fun _ _ hFirst => hFirst.demanded names wanted) hStates

end

------------------------------------------------------------
-- Calls
------------------------------------------------------------

/- The call of a method on an expression. -/
def calling
    (receiver property : Expr)
    (args : List Expr)
    (middle called : Note) : Expr :=
  ⟨.call ⟨.member receiver property false, middle⟩ args, called⟩

/-
  A call compiles the receiver and runs the method. What the method
  answers is the result, without names, if it is a schema at all.
-/
theorem outcome_answering
    {receiver property : Expr}
    {args : List Expr}
    {called : Note}
    {name : String}
    {method : Method}
    {schema answer : Schema}
    {between : Registry}
    (hReceiver :
      outcome (expr compiler expand receiver) registry =
        (.ok schema, between))
    (hProperty : property.identifier? = some name)
    (hMethod : compiler.methods.get? name = some method)
    (hRun :
      outcome (run compiler expand method schema ⟨name, args, called.span⟩)
          between =
        (.ok answer, after))
    (middle : Note) :
    outcome
        (expr compiler expand (calling receiver property args middle called))
        registry =
      (if answer.isFalsy then .error ⟨.noSchema name, called.span⟩
        else .ok answer.stripNames, after) := by
  unfold calling
  rw [expr_call_method hProperty hMethod, outcome_bind, hReceiver]
  dsimp only [andThen]
  rw [outcome_bind, hRun]
  dsimp only [andThen]
  cases answer.isFalsy with
  | true => rfl
  | false => rfl

theorem outcome_calling
    {receiver property : Expr}
    {args : List Expr}
    {called : Note}
    {name : String}
    {method : Method}
    {schema answer : Schema}
    {between : Registry}
    (hReceiver :
      outcome (expr compiler expand receiver) registry =
        (.ok schema, between))
    (hProperty : property.identifier? = some name)
    (hMethod : compiler.methods.get? name = some method)
    (hRun :
      outcome (run compiler expand method schema ⟨name, args, called.span⟩)
          between =
        (.ok answer, after))
    (hAnswer : answer.isFalsy = false)
    (middle : Note) :
    outcome
        (expr compiler expand (calling receiver property args middle called))
        registry =
      (.ok answer.stripNames, after) := by
  rw [outcome_answering hReceiver hProperty hMethod hRun middle, hAnswer]
  rfl

/- A method on objects that uses its arguments as they are written. -/
theorem yields_calling
    {finish : Schema → Call → Unit → Except CompileError Schema}
    {state state' : Reconciled}
    {receiver property : Expr}
    {args : List Expr}
    {called : Note}
    {name : String}
    (hReceiver :
      Yields registry (expr compiler expand receiver)
        (.object state.toFields))
    (hProperty : property.identifier? = some name)
    (hMethod :
      compiler.methods.get? name = some ⟨some .object, .nothing, finish⟩)
    (hFinish :
      finish (.object state.toFields) ⟨name, args, called.span⟩ () =
        .ok (.object state'.toFields))
    (middle : Note) :
    Yields registry
      (expr compiler expand (calling receiver property args middle called))
      (.object state'.toFields) := by
  have hRun :
      Yields registry
        (run compiler expand ⟨some .object, .nothing, finish⟩
          (.object state.toFields) ⟨name, args, called.span⟩)
        (.object state'.toFields) :=
    yields_run rfl (yields_evaluate_nothing _) hFinish
  exact outcome_calling hReceiver hProperty hMethod hRun rfl middle

/-
  Two expressions are compiled to schemas in a relation, and give no
  names.
-/
def CompilesLike
    (compiler : Compiler)
    (registry : Registry)
    (related : Schema → Schema → Prop)
    (e e' : Expr) : Prop :=
  ∃ schema schema',
    Yields registry (compile compiler e) schema ∧
      Yields registry (compile compiler e') schema' ∧
        related schema schema'

section

variable {note : Note}
variable {property : Expr}
variable {name : String}
variable {args : List Expr}
variable {names : List String}
variable (hStates :
  List.Forall₂
    (States compiler (expandWithin compiler registry.declaredNames)
      registry)
    members said)
variable (hNote : note.comments.isEmpty = true)
variable (hMethods : compiler.methods = Method.builtins)
variable (hProperty : property.identifier? = some name)
variable (middle called : Note)

include hStates hNote hMethods hProperty

/- A method gives what the members of another literal state. -/
theorem compilesLike_of_finish
    {finish : Schema → Call → Unit → Except CompileError Schema}
    {state : Reconciled}
    {others : List Member}
    {saying : List Stated}
    {related : Schema → Schema → Prop}
    (hMethod :
      Method.builtins.get? name = some ⟨some .object, .nothing, finish⟩)
    (hFinish :
      finish (.object (Reconciled.empty.putAll said).toFields)
          ⟨name, args, called.span⟩ () =
        .ok (.object state.toFields))
    (hOthers :
      List.Forall₂
        (States compiler (expandWithin compiler registry.declaredNames)
          registry)
        others saying)
    (hRelated :
      related (.object state.toFields)
        (.object (Reconciled.empty.putAll saying).toFields)) :
    CompilesLike compiler registry related
      (calling ⟨.object members, note⟩ property args middle called)
      ⟨.object others, note⟩ := by
  rw [← hMethods] at hMethod
  have hReceiver := yields_object hStates hNote
  have hCall := yields_calling hReceiver hProperty hMethod hFinish middle
  have hLiteral := yields_object hOthers hNote
  exact ⟨_, _, yields_compile hCall, yields_compile hLiteral, hRelated⟩

variable (hDistinct : (said.map Stated.name).Nodup)
variable (hArgs : args ≠ [])

include hDistinct hArgs

theorem compilesLike_pick
    (hName : name ∈ Method.picking)
    {choices : List (String × String)}
    (hChoices : Call.choices? args = some choices)
    (hApart :
      Call.Selection.Separates (OrderedMap.ofList choices)
        (said.map Stated.name))
    (hPlain :
      ∀ word ∈ said.map Stated.name, ∀ renamed,
        (OrderedMap.ofList choices).get? word = some renamed →
          (Key.string renamed).isPlain = true) :
    CompilesLike compiler registry Eq
      (calling ⟨.object members, note⟩ property args middle called)
      ⟨.object
        (members.filterMap (Member.chosen (OrderedMap.ofList choices))),
        note⟩ := by
  have hFinish :=
    Method.pick_of_choices ⟨name, args, called.span⟩
      (Reconciled.empty.putAll said).toFields hArgs hChoices
  rw [Fields.pick_putAll hDistinct hApart] at hFinish
  exact compilesLike_of_finish hStates hNote hMethods hProperty middle called
    (Method.get?_of_mem_writers _ (.tail _ (.head _)) name hName) hFinish
    (states_chosen hStates hPlain) rfl

variable (hNames : args.mapM Expr.string? = some names)

include hNames

theorem compilesLike_remove
    (hName : name ∈ Method.removing) :
    CompilesLike compiler registry Eq
      (calling ⟨.object members, note⟩ property args middle called)
      ⟨.object (members.filter fun member => !member.isNamed names),
        note⟩ := by
  have hFinish :=
    Method.remove_of_strings ⟨name, args, called.span⟩
      (Reconciled.empty.putAll said).toFields hArgs hNames
  rw [Fields.drop_putAll hDistinct] at hFinish
  exact compilesLike_of_finish hStates hNote hMethods hProperty middle called
    (Method.get?_of_mem_writers _ (.tail _ (.tail _ (.head _))) name hName)
    hFinish (states_unnamed hStates names) rfl

theorem compilesLike_required
    (hName : name = "required")
    (hStated : names ⊆ said.map Stated.name) :
    CompilesLike compiler registry Schema.SameButOrder
      (calling ⟨.object members, note⟩ property args middle called)
      ⟨.object (members.map (Member.demanded names true)), note⟩ := by
  have hFinish :=
    Method.required_of_strings ⟨name, args, called.span⟩
      (Reconciled.empty.putAll said).toFields hArgs hNames
  have hSame := Fields.sameButOrder_demandAll hDistinct hStated
  rw [Fields.demandAll_toFields] at hFinish hSame
  subst hName
  exact compilesLike_of_finish hStates hNote hMethods hProperty middle called
    rfl hFinish (states_demanded hStates names true) hSame

theorem compilesLike_notRequired
    (hName : name ∈ Method.dismissing) :
    CompilesLike compiler registry Eq
      (calling ⟨.object members, note⟩ property args middle called)
      ⟨.object (members.map (Member.demanded names false)), note⟩ := by
  have hFinish :=
    Method.notRequired_of_strings ⟨name, args, called.span⟩
      (Reconciled.empty.putAll said).toFields hArgs hNames
  rw [Fields.demandAll_putAll hDistinct] at hFinish
  exact compilesLike_of_finish hStates hNote hMethods hProperty middle called
    (Method.get?_of_mem_writers _
      (.tail _ (.tail _ (.tail _ (.tail _ (.head _))))) name hName)
    hFinish (states_demanded hStates names false) rfl

end

/-
  A method that picks, drops or requires properties of an object literal
  gives what a literal gives whose members are picked, dropped, or made
  computed or not. Only names that come to be required are listed in
  another order.
-/
theorem choosing_agrees_literal
    (version : Version)
    (registry after : Registry)
    (members : List Member)
    (note : Note)
    (schema : Schema)
    (hQuiet : ∀ member ∈ members, member.isQuiet = true)
    (hDistinct : (members.filterMap Member.word?).Nodup)
    (hNote : note.comments.isEmpty = true)
    (hDeclared : DeclaresQuietly registry)
    (hEnds :
      outcome (compile { version := version } ⟨.object members, note⟩)
          registry =
        (.ok schema, after)) :
    after = registry ∧
      ∀ (property : Expr) (name : String) (args : List Expr)
          (middle called : Note),
        property.identifier? = some name → args ≠ [] →
          (name ∈ Method.picking → ∀ choices,
            Call.choices? args = some choices →
            Call.Selection.Separates (OrderedMap.ofList choices)
              (members.filterMap Member.word?) →
            (∀ word ∈ members.filterMap Member.word?, ∀ renamed,
              (OrderedMap.ofList choices).get? word = some renamed →
                (Key.string renamed).isPlain = true) →
            CompilesLike { version := version } registry Eq
              (calling ⟨.object members, note⟩ property args middle called)
              ⟨.object
                (members.filterMap
                  (Member.chosen (OrderedMap.ofList choices))), note⟩) ∧
          ∀ names, args.mapM Expr.string? = some names →
            (name ∈ Method.removing →
              CompilesLike { version := version } registry Eq
                (calling ⟨.object members, note⟩ property args middle
                  called)
                ⟨.object
                  (members.filter fun member => !member.isNamed names),
                  note⟩) ∧
            (name ∈ Method.dismissing →
              CompilesLike { version := version } registry Eq
                (calling ⟨.object members, note⟩ property args middle
                  called)
                ⟨.object (members.map (Member.demanded names false)),
                  note⟩) ∧
            (name = "required" →
              names ⊆ members.filterMap Member.word? →
              CompilesLike { version := version } registry
                Schema.SameButOrder
                (calling ⟨.object members, note⟩ property args middle
                  called)
                ⟨.object (members.map (Member.demanded names true)),
                  note⟩) := by
  rw [outcome_compile] at hEnds
  rcases states_of_object (Compiler.isSilent_builtin version) hDeclared hQuiet
      hEnds with ⟨said, hStates⟩
  cases hEnds.symm.trans (yields_object hStates hNote)
  rw [← names_of_states hStates] at hDistinct ⊢
  refine ⟨rfl, ?_⟩
  intro property name args middle called hProperty hArgs
  constructor
  · intro hName choices hChoices hApart hPlain
    exact compilesLike_pick hStates hNote rfl hProperty middle called
      hDistinct hArgs hName hChoices hApart hPlain
  · intro names hNames
    refine ⟨fun hName => ?_, fun hName => ?_, fun hName hStated => ?_⟩
    · exact compilesLike_remove hStates hNote rfl hProperty middle called
        hDistinct hArgs hNames hName
    · exact compilesLike_notRequired hStates hNote rfl hProperty middle
        called hDistinct hArgs hNames hName
    · exact compilesLike_required hStates hNote rfl hProperty middle called
        hDistinct hArgs hNames hName hStated

/- The members `a: int, ["b"]: int`. -/
def oneRequired : List Member :=
  [naming "a" false "int", naming "b" true "int"]

/- The arguments `{ a: "b", b: "a" }, ["c"]`. -/
def swapping : List Expr :=
  [⟨.object
      [.property (.string "a") false ⟨.string "b", {}⟩ {} {},
        .property (.string "b") false ⟨.string "a", {}⟩ {} {}], {}⟩,
    ⟨.array [⟨.string "c", {}⟩], {}⟩]

/-
  Two names are swapped, with a name besides that is not there, and a
  name is dropped or required that is given twice.
-/
theorem choosing_agrees_literal_swapping :
    (∀ member ∈ oneRequired, member.isQuiet = true) ∧
      (oneRequired.filterMap Member.word?).Nodup ∧
      DeclaresQuietly Registry.initial ∧
      CompilesLike {} Registry.initial Eq
        (calling ⟨.object oneRequired, {}⟩ ⟨.identifier "pick", {}⟩
          swapping {} {})
        ⟨.object [naming "b" false "int", naming "a" true "int"], {}⟩ ∧
      CompilesLike {} Registry.initial Eq
        (calling ⟨.object oneRequired, {}⟩ ⟨.identifier "omit", {}⟩
          [⟨.string "a", {}⟩, ⟨.string "a", {}⟩] {} {})
        ⟨.object [naming "b" true "int"], {}⟩ ∧
      CompilesLike {} Registry.initial Schema.SameButOrder
        (calling ⟨.object oneRequired, {}⟩ ⟨.identifier "required", {}⟩
          [⟨.string "b", {}⟩, ⟨.string "b", {}⟩] {} {})
        ⟨.object [naming "a" false "int", naming "b" false "int"], {}⟩ := by
  have hQuiet : ∀ member ∈ oneRequired, member.isQuiet = true := by decide
  have hDistinct : (oneRequired.filterMap Member.word?).Nodup := by decide
  have hStates :
      List.Forall₂
        (States {} (expandWithin {} Registry.initial.declaredNames)
          Registry.initial)
        oneRequired [⟨"a", true, integer⟩, ⟨"b", false, integer⟩] :=
    .cons (states_int rfl false) (.cons (states_int rfl true) .nil)
  have hPlain : ({} : Note).comments.isEmpty = true := rfl
  rcases choosing_agrees_literal .draft07 Registry.initial _ oneRequired {}
      _ hQuiet hDistinct hPlain declaresQuietly_initial
      (yields_compile (yields_object hStates hPlain)) with
    ⟨-, hAgrees⟩
  have hChoices :
      Call.choices? swapping =
        some [("a", "b"), ("b", "a"), ("c", "c")] := rfl
  have hApart :
      Call.Selection.Separates
        (OrderedMap.ofList [("a", "b"), ("b", "a"), ("c", "c")])
        (oneRequired.filterMap Member.word?) :=
    (Call.Selection.nodup_filterMap_iff _ hDistinct).mp (by decide)
  have hAliases :
      ∀ choice ∈
          (OrderedMap.ofList
            [("a", "b"), ("b", "a"), ("c", "c")]).toList,
        (Key.string choice.2).isPlain = true := by
    decide
  have hPick :=
    (hAgrees ⟨.identifier "pick", {}⟩ "pick" swapping {} {} rfl
      (List.cons_ne_nil _ _)).1 (by decide) _ hChoices hApart
      fun word _ renamed hGet =>
        hAliases (word, renamed) (OrderedMap.mem_of_get? hGet)
  have hOmit :=
    ((hAgrees ⟨.identifier "omit", {}⟩ "omit"
      [⟨.string "a", {}⟩, ⟨.string "a", {}⟩] {} {} rfl
      (List.cons_ne_nil _ _)).2 ["a", "a"] rfl).1 (by decide)
  have hRequire :=
    ((hAgrees ⟨.identifier "required", {}⟩ "required"
      [⟨.string "b", {}⟩, ⟨.string "b", {}⟩] {} {} rfl
      (List.cons_ne_nil _ _)).2 ["b", "b"] rfl).2.2 rfl (by decide)
  exact ⟨hQuiet, hDistinct, declaresQuietly_initial, hPick, hOmit, hRequire⟩

end Compile

end SchemaLang
