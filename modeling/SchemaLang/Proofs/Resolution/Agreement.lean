import SchemaLang.Proofs.Resolution.Loops

/-
  The machine compiles every expression as the compiler does, if it
  resolves names so and its nested calls agree. An expression needs
  nested calls on smaller ones, and a case needs one on the object
  that is built for it.

  Main declarations:
    * `Machine.Agrees`
    * `Machine.AgreesBelow`
    * `Machine.compiled_of_below` and `Machine.written_of_below`
-/

namespace SchemaLang

namespace Machine

------------------------------------------------------------
-- Agreement
------------------------------------------------------------

/- An expression is compiled and taken as it is written alike. -/
structure Agrees
    (compiler : Compiler)
    (expand : Compile.Expand)
    (scope : Scope)
    (nested : Nested)
    (e : Expr) : Prop where
  compiled :
    Simulates scope (nested.compile e)
      (Compile.expr compiler expand e)
  written :
    Simulates scope (nested.write e)
      (Compile.literal compiler expand e)

/- All expressions below a size agree. -/
def AgreesBelow
    (compiler : Compiler)
    (expand : Compile.Expand)
    (scope : Scope)
    (nested : Nested)
    (size : Nat) : Prop :=
  ∀ e : Expr, sizeOf e < size → Agrees compiler expand scope nested e

/- The objects that are built for cases below a size agree. -/
def CombinesBelow
    (compiler : Compiler)
    (expand : Compile.Expand)
    (scope : Scope)
    (nested : Nested)
    (size : Nat) : Prop :=
  ∀ left right : Expr, sizeOf left < size → sizeOf right < size →
    Simulates scope (nested.compile (combined left right)) (do
      let fields ←
        Compile.spreadInto compiler expand Fields.skeleton left
      let fields ← Compile.spreadInto compiler expand fields right
      pure (.object fields))

variable {compiler : Compiler}
variable {expand : Compile.Expand}
variable {scope : Scope}
variable {nested : Nested}
variable {size : Nat}

------------------------------------------------------------
-- Sizes
------------------------------------------------------------

theorem sizeOf_value_lt
    {members : List Member}
    {member : Member}
    {value : Expr}
    (hMember : member ∈ members)
    (hValue : value? member = some value) :
    sizeOf value < sizeOf members := by
  have hSize := List.sizeOf_lt_of_mem hMember
  cases member with
  | property key computed value span comments =>
      cases hValue
      simp at hSize
      omega
  | spread e => cases hValue

theorem sizeOf_argument_lt
    {elements : List Expr}
    {element argument : Expr}
    (hElement : element ∈ elements)
    (hArgument : spread? element = some argument) :
    sizeOf argument < sizeOf elements := by
  have hSize := List.sizeOf_lt_of_mem hElement
  unfold spread? at hArgument
  split at hArgument
  · cases hArgument
    simp at hSize
    omega
  · cases hArgument

------------------------------------------------------------
-- Objects
------------------------------------------------------------

theorem simulates_spreadInto
    (hBelow : AgreesBelow compiler expand scope nested size)
    {argument : Expr}
    (hSize : sizeOf argument < size)
    (fields : Fields) :
    Simulates scope (spreadInto nested fields argument)
      (Compile.spreadInto compiler expand fields argument) := by
  by_cases hLiteral :
      ∃ members inner middle note,
        argument =
          ⟨.unary .not ⟨.unary .not ⟨.object members, inner⟩, middle⟩,
            note⟩
  · rcases hLiteral with ⟨members, inner, middle, note, rfl⟩
    have hObject :
        sizeOf (Expr.mk (.object members) inner) < size := by
      simp at hSize ⊢
      omega
    have hWritten := (hBelow _ hObject).written
    have hSpread :
        Compile.spreadInto compiler expand fields
            ⟨.unary .not ⟨.unary .not ⟨.object members, inner⟩,
              middle⟩, note⟩ =
          Compile.literal compiler expand ⟨.object members, inner⟩ >>=
            fun values => pure (applyAll fields values) := by
      rw [Compile.spreadInto, Compile.literal_object, bind_assoc]
      rfl
    rw [spreadInto, hSpread]
    exact hWritten.bind fun values => .pure _
  · have hOther :
        ∀ members inner middle note,
          argument =
            ⟨.unary .not ⟨.unary .not ⟨.object members, inner⟩, middle⟩,
              note⟩ → False :=
      fun members inner middle note hForm =>
        hLiteral ⟨members, inner, middle, note, hForm⟩
    rw [spreadInto, Compile.spreadInto]
    · exact (hBelow argument hSize).compiled.bind fun source =>
        .check _
    · exact hOther
    · exact hOther

------------------------------------------------------------
-- Arguments Of Operations
------------------------------------------------------------

theorem simulates_readArg
    (hBelow : AgreesBelow compiler expand scope nested size)
    {arg : Expr}
    (hSize : sizeOf arg < size)
    (name : String)
    (span : Span)
    (reading : Reading) :
    Simulates scope (readArg nested name span reading arg)
      (Compile.readArg compiler expand name span reading arg) := by
  have hArg := hBelow arg hSize
  cases reading with
  | schema =>
      rw [readArg, Compile.readArg]
      exact hArg.compiled
  | literal =>
      rw [readArg, Compile.readArg]
      exact hArg.written
  | flagOrSchema =>
      rcases arg with ⟨form, note⟩
      cases form with
      | boolean value =>
          rw [readArg, Compile.readArg]
          exact .pure _
      | _ =>
          rw [readArg, Compile.readArg]
          · exact hArg.compiled
          all_goals simp
  | items =>
      rcases arg with ⟨form, note⟩
      cases form with
      | array elements =>
          rw [readArg, Compile.readArg]
          refine (simulates_all fun element hElement => ?_).bind
            fun items => .pure _
          have hLess := List.sizeOf_lt_of_mem hElement
          refine (hBelow element ?_).compiled
          simp at hSize
          omega
      | _ =>
          rw [readArg, Compile.readArg]
          · exact hArg.compiled
          all_goals simp
  | schemaMap =>
      rcases arg with ⟨form, note⟩
      cases form with
      | call callee arguments =>
          have hCall := hArg.compiled
          rw [Compile.expr] at hCall
          rw [readArg, Compile.readArg]
          refine hCall.bind fun schema => ?_
          split
          · exact .pure _
          · exact .throw _
      | object members =>
          rw [readArg, Compile.readArg]
          refine (simulates_schemaMembers name
            fun member hMember value hValue => ?_).bind
              fun fields => .pure _
          have hLess := sizeOf_value_lt hMember hValue
          refine (hBelow value ?_).compiled
          simp at hSize
          omega
      | _ =>
          rw [readArg, Compile.readArg]
          · exact .throw _
          all_goals simp
  | literalObject =>
      rcases arg with ⟨form, note⟩
      cases form with
      | object members =>
          rw [readArg, Compile.readArg,
            ← Compile.literal_object members note]
          exact hArg.written
      | _ =>
          rw [readArg, Compile.readArg]
          · exact .throw _
          all_goals simp

/- Entries are one object literal, or a key and a value. -/
theorem simulates_entries
    (hBelow : AgreesBelow compiler expand scope nested size)
    {site : Call}
    (hSize : ∀ arg ∈ site.args, sizeOf arg < size) :
    Simulates scope (evaluate nested .entries site)
      (Compile.evaluate compiler expand .entries site) := by
  rcases site with ⟨name, args, span⟩
  rcases args with _ | ⟨first, _ | ⟨second, _ | ⟨third, others⟩⟩⟩
  · rw [evaluate, Compile.evaluate]
    · exact .throw _
    all_goals simp
  · rcases first with ⟨form, note⟩
    cases form with
    | object members =>
        rw [evaluate, Compile.evaluate]
        refine (Simulates.check _).bind fun keys => ?_
        refine (simulates_literalValues
          fun member hMember value hValue => ?_).bind
            fun values => .pure _
        have hLess := sizeOf_value_lt hMember hValue
        have hFirst := hSize ⟨.object members, note⟩ (by simp)
        refine (hBelow value ?_).written
        simp at hFirst
        omega
    | _ =>
        rw [evaluate, Compile.evaluate]
        · exact .throw _
        all_goals simp
  · rw [evaluate, Compile.evaluate]
    refine (Simulates.check _).bind fun target => ?_
    refine (hBelow second (hSize second (by simp))).written.bind
      fun schema => .pure _
  · rw [evaluate, Compile.evaluate]
    · exact .throw _
    all_goals simp

theorem simulates_evaluate
    (hBelow : AgreesBelow compiler expand scope nested size)
    {site : Call}
    (hSize : ∀ arg ∈ site.args, sizeOf arg < size)
    (demand : Demand) :
    Simulates scope (evaluate nested demand site)
      (Compile.evaluate compiler expand demand site) := by
  cases demand with
  | nothing =>
      rw [evaluate, Compile.evaluate]
      exact .pure _
  | entries => exact simulates_entries hBelow hSize
  | schemas =>
      rw [evaluate, Compile.evaluate]
      refine (Simulates.check _).bind fun _ => ?_
      exact simulates_all fun arg hArg =>
        (hBelow arg (hSize arg hArg)).compiled
  | value reading =>
      rcases site with ⟨name, args, span⟩
      rcases args with _ | ⟨first, _ | ⟨second, others⟩⟩
      · rw [evaluate, Compile.evaluate]
        · exact .throw _
        all_goals simp
      · rw [evaluate, Compile.evaluate]
        exact simulates_readArg hBelow (hSize first (by simp)) name span
          reading
      · rw [evaluate, Compile.evaluate]
        · exact .throw _
        all_goals simp
  | definitions =>
      rcases site with ⟨name, args, span⟩
      rcases args with _ | ⟨first, others⟩
      · rw [evaluate, Compile.evaluate]
        · exact .throw _
        all_goals simp
      · rw [evaluate, Compile.evaluate]
        refine (Simulates.check _).bind fun target => ?_
        exact simulates_definitions target fun arg hArg =>
          (hBelow arg (hSize arg (List.mem_cons_of_mem _ hArg))).compiled

theorem simulates_operate
    (hBelow : AgreesBelow compiler expand scope nested size)
    {site : Call}
    (hSize : ∀ arg ∈ site.args, sizeOf arg < size)
    (method : Method)
    (receiver : Schema) :
    Simulates scope (operate nested method receiver site)
      (Compile.run compiler expand method receiver site) := by
  rw [operate, Compile.run]
  refine (Simulates.check _).bind fun _ => ?_
  exact (simulates_evaluate hBelow hSize method.demand).bind
    fun result => .check _

theorem simulates_call
    (hBelow : AgreesBelow compiler expand scope nested size)
    {callee : Expr}
    {arguments : List Expr}
    (hCallee : sizeOf callee < size)
    (hSize : ∀ arg ∈ arguments, sizeOf arg < size)
    (note : Note) :
    Simulates scope (call compiler nested callee arguments note)
      (Compile.call compiler expand callee arguments note) := by
  rcases callee with ⟨form, calleeNote⟩
  cases form with
  | identifier name =>
      rw [call, Compile.call]
      cases compiler.functions.get? name with
      | none => exact .fail _ _
      | some function =>
          have hArgs :
              ∀ arg ∈ Call.args ⟨name, arguments, note.span⟩,
                sizeOf arg < size := hSize
          exact (simulates_evaluate hBelow hArgs function.demand).bind
            fun result => .check _
  | member object property computed =>
      cases computed with
      | false =>
          have hObject : sizeOf object < size := by
            simp at hCallee
            omega
          rw [call, Compile.call]
          cases property.identifier? with
          | none => exact .fail _ _
          | some name =>
              refine (hBelow object hObject).compiled.bind
                fun receiver => ?_
              cases compiler.methods.get? name with
              | none => exact .fail _ _
              | some method =>
                  have hArgs :
                      ∀ arg ∈ Call.args ⟨name, arguments, note.span⟩,
                        sizeOf arg < size := hSize
                  refine (simulates_operate hBelow hArgs method
                    receiver).bind fun result => ?_
                  split
                  · exact .fail _ _
                  · exact .pure _
      | true =>
          rw [call, Compile.call]
          · exact .fail _ _
          all_goals simp
  | _ =>
      rw [call, Compile.call]
      · exact .fail _ _
      all_goals simp

------------------------------------------------------------
-- Objects And Cases
------------------------------------------------------------

/- A property that is compiled into the entries of an object. -/
theorem simulates_property
    (hBelow : AgreesBelow compiler expand scope nested size)
    {value : Expr}
    (hSize : sizeOf value < size)
    (previous : Option Member)
    (fields : Fields)
    (key : Key)
    (computed : Bool)
    (span : Span)
    (comments : Comments) :
    Simulates scope
      (memberInto compiler nested previous fields
        (.property key computed value span comments))
      (Compile.propertyInto compiler expand previous fields key computed
        value span comments) := by
  by_cases hPattern : ∃ pattern flags, key = .regex pattern flags
  · rcases hPattern with ⟨pattern, flags, rfl⟩
    rw [memberInto, Compile.propertyInto]
    exact .pure _
  · have hPlain : ∀ pattern flags, key = .regex pattern flags → False :=
      fun pattern flags hKey => hPattern ⟨pattern, flags, hKey⟩
    rw [memberInto, Compile.propertyInto]
    · refine (Simulates.check _).bind fun name => ?_
      cases Compile.directive? compiler name with
      | some entry =>
          have hArgs :
              ∀ arg ∈ Call.args ⟨entry.1, [value], span⟩,
                sizeOf arg < size := by
            intro arg hArg
            rw [List.mem_singleton] at hArg
            exact hArg ▸ hSize
          refine (simulates_operate hBelow hArgs entry.2 _).bind
            fun result => ?_
          cases result with
          | object fields => exact .pure fields
          | _ => exact .fail _ _
      | none =>
          dsimp only
          split
          · exact .pure _
          · exact (hBelow value hSize).compiled.bind
              fun schema => .pure _
    · exact hPlain
    · exact hPlain

theorem simulates_memberInto
    (hBelow : AgreesBelow compiler expand scope nested size)
    {member : Member}
    (hSize : sizeOf member < size)
    (previous : Option Member)
    (fields : Fields) :
    Simulates scope (memberInto compiler nested previous fields member)
      (Compile.memberStep compiler expand previous fields member) := by
  cases member with
  | property key computed value span comments =>
      have hValue : sizeOf value < size := by
        simp at hSize
        omega
      exact simulates_property hBelow hValue previous fields key computed
        span comments
  | spread e =>
      rw [memberInto]
      rcases e with ⟨form, note⟩
      cases form with
      | spread argument =>
          have hArgument : sizeOf argument < size := by
            simp at hSize
            omega
          exact simulates_spreadInto hBelow hArgument fields
      | _ => exact .fail _ _

theorem simulates_combined
    (hBelow : AgreesBelow compiler expand scope nested size)
    {left right : Expr}
    (hLeft : sizeOf left < size)
    (hRight : sizeOf right < size) :
    Simulates scope (expr compiler nested (combined left right)) (do
      let fields ←
        Compile.spreadInto compiler expand Fields.skeleton left
      let fields ← Compile.spreadInto compiler expand fields right
      pure (.object fields)) := by
  rw [expr_combined]
  refine (simulates_spreadInto hBelow hLeft _).bind fun fields => ?_
  exact (simulates_spreadInto hBelow hRight _).bind fun fields => .pure _

theorem simulates_case
    (hBelow : AgreesBelow compiler expand scope nested size)
    (hCombines : CombinesBelow compiler expand scope nested size)
    {left right : Expr}
    (hLeft : sizeOf left < size)
    (hRight : sizeOf right < size) :
    Simulates scope (case nested left right)
      (Compile.case compiler expand left right) := by
  rw [case, Compile.case_eq]
  refine (hBelow left hLeft).compiled.bind fun condition => ?_
  exact (hCombines left right hLeft hRight).bind
    fun consequence => .pure _

------------------------------------------------------------
-- Arrays
------------------------------------------------------------

theorem simulates_array_tuple
    (hBelow : AgreesBelow compiler expand scope nested size)
    {first second : Expr}
    {others : List Expr}
    (hSize : sizeOf (first :: second :: others) ≤ size)
    (exact : Bool) :
    Simulates scope
      (array compiler nested (first :: second :: others) exact)
      (Compile.array compiler expand (first :: second :: others)
        exact) := by
  rw [array, Compile.array]
  · cases Compile.arrayFault? (first :: second :: others) exact with
    | some error => exact .throw error
    | none =>
        generalize Compile.arrayFields _ exact = fields
        generalize Compile.tupleKeys compiler.version = keys
        generalize first :: second :: others = elements at hSize ⊢
        refine (simulates_tuple fun element hElement _ => ?_).bind
          fun items => ?_
        · have hLess := List.sizeOf_lt_of_mem hElement
          exact (hBelow element (by omega)).compiled
        · have hArgument :
              ∀ element ∈ elements, ∀ argument,
                spread? element = some argument →
                  Simulates scope (nested.compile argument)
                    (Compile.expr compiler expand argument) := by
            intro element hElement argument hSpread
            have hLess := sizeOf_argument_lt hElement hSpread
            exact (hBelow argument (by omega)).compiled
          let inner : Fields :=
            OrderedMap.insert fields keys.1 (.array items)
          refine simulates_rest
            (fun result =>
              pure (Schema.object
                (result.elim inner (inner.insert keys.2))))
            _ hArgument fun result => ?_
          cases result <;> exact .pure _
  all_goals simp

theorem simulates_array
    (hBelow : AgreesBelow compiler expand scope nested size)
    {elements : List Expr}
    (hSize : sizeOf elements ≤ size)
    (exact : Bool) :
    Simulates scope (array compiler nested elements exact)
      (Compile.array compiler expand elements exact) := by
  rcases elements with _ | ⟨element, _ | ⟨second, others⟩⟩
  · rw [array, Compile.array]
    exact .pure _
  · rw [array]
    by_cases hSpread : element.isSpread = true
    · rcases element with ⟨form, note⟩
      cases form <;> simp [Expr.isSpread] at hSpread
      rename_i argument
      rw [Compile.array]
      cases exact with
      | true => exact .fail _ _
      | false =>
          have hArgument : sizeOf argument < size := by
            simp at hSize
            omega
          exact (hBelow argument hArgument).compiled.bind
            fun schema => .pure _
    · have hNone := spread?_eq_none hSpread
      have hFault : Compile.arrayFault? [element] exact = none := by
        simp [Compile.arrayFault?, hSpread]
      have hElement : sizeOf element < size := by
        simp at hSize
        omega
      rw [hNone, hFault, Compile.array]
      · exact (hBelow element hElement).compiled.bind
          fun schema => .pure _
      · rintro argument note rfl
        exact hSpread rfl
  · exact simulates_array_tuple hBelow hSize exact

------------------------------------------------------------
-- Expressions
------------------------------------------------------------

/- An expression is taken as written alike, if its parts are. -/
theorem written_of_below
    (hResolve :
      ∀ e, Simulates scope (resolve nested e)
        (Compile.resolve expand e))
    {e : Expr}
    (hBelow : AgreesBelow compiler expand scope nested (sizeOf e)) :
    Simulates scope (literal compiler nested e)
      (Compile.literal compiler expand e) := by
  rw [literal.eq_def, Compile.literal.eq_def]
  by_cases hUndefined : e.isUndefined = true
  · rw [if_pos hUndefined, if_pos hUndefined]
    exact .pure _
  rw [if_neg hUndefined, if_neg hUndefined]
  cases e.number? with
  | some value => exact .pure _
  | none =>
      rcases e with ⟨form, note⟩
      cases form with
      | object members =>
          refine (simulates_literalMembers
            fun member hMember value hValue => ?_).bind
              fun fields => .pure _
          have hLess := sizeOf_value_lt hMember hValue
          refine (hBelow value ?_).written
          simp
          omega
      | array elements =>
          refine (simulates_literalAll fun element hElement => ?_).bind
            fun items => .pure _
          have hLess := List.sizeOf_lt_of_mem hElement
          refine (hBelow element ?_).written
          simp
          omega
      | string value => exact .pure _
      | boolean value => exact .pure _
      | null => exact .pure _
      | identifier name => exact hResolve _
      | member object property computed => exact hResolve _
      | binary op left right => exact hResolve _
      | call callee arguments =>
          refine simulates_call hBelow ?_ (fun arg hArg => ?_) note
          · simp
            omega
          · have hLess := List.sizeOf_lt_of_mem hArg
            simp
            omega
      | _ => exact .fail _ _

theorem simulates_object
    {members : List Member}
    {note : Note}
    (hBelow :
      AgreesBelow compiler expand scope nested
        (sizeOf (Expr.mk (.object members) note))) :
    Simulates scope (expr compiler nested ⟨.object members, note⟩)
      (Compile.expr compiler expand ⟨.object members, note⟩) := by
  have hMembers :
      sizeOf members < sizeOf (Expr.mk (.object members) note) := by
    simp
    omega
  rw [expr, Compile.expr]
  refine (simulates_memberList
    (fun member hMember previous fields => ?_) none _).bind
      fun fields => ?_
  · have hLess := List.sizeOf_lt_of_mem hMember
    exact simulates_memberInto hBelow (Nat.lt_trans hLess hMembers)
      previous fields
  · simp only [pure_bind]
    split
    · refine (simulates_patternList
        fun member hMember value hValue => ?_).bind
          fun patterns => .pure _
      have hLess := sizeOf_value_lt hMember hValue
      exact (hBelow value (Nat.lt_trans hLess hMembers)).compiled
    · exact .pure _

theorem simulates_logical
    {op : LogicalOp}
    {left right : Expr}
    {note : Note}
    (hBelow :
      AgreesBelow compiler expand scope nested
        (sizeOf (Expr.mk (.logical op left right) note)))
    (hCombines :
      CombinesBelow compiler expand scope nested
        (sizeOf (Expr.mk (.logical op left right) note))) :
    Simulates scope (expr compiler nested ⟨.logical op left right, note⟩)
      (Compile.expr compiler expand ⟨.logical op left right, note⟩) := by
  have hLeaf :
      ∀ leaf ∈ Chain.leaves ⟨.logical op left right, note⟩,
        sizeOf leaf < sizeOf (Expr.mk (.logical op left right) note) :=
    fun leaf hLeaf =>
      Nat.lt_trans (List.sizeOf_lt_of_mem hLeaf)
        (Chain.sizeOf_leaves op left right note)
  rw [expr, logical, Compile.expr]
  cases Chain.fault? op ⟨.logical op left right, note⟩ with
  | some error => exact .throw error
  | none =>
      dsimp only
      split
      · refine (simulates_cases fun leaf hMember sides hSides => ?_).bind
          fun cases => .pure _
        have hLess := hLeaf leaf hMember
        unfold sides? at hSides
        split at hSides
        · cases hSides
          refine simulates_case hBelow hCombines ?_ ?_
          all_goals
            simp at hLess ⊢
            omega
        · cases hSides
      · generalize (if op = .or then Chain.constants? _ else none) =
          constants
        cases constants with
        | some constants => exact .pure _
        | none =>
            exact (simulates_all fun leaf hMember =>
              (hBelow leaf (hLeaf leaf hMember)).compiled).bind
                fun branches => .pure _

theorem simulates_binary
    (hResolve :
      ∀ e, Simulates scope (resolve nested e)
        (Compile.resolve expand e))
    {op : BinaryOp}
    {left right : Expr}
    {note : Note}
    (hBelow :
      AgreesBelow compiler expand scope nested
        (sizeOf (Expr.mk (.binary op left right) note)))
    (hCombines :
      CombinesBelow compiler expand scope nested
        (sizeOf (Expr.mk (.binary op left right) note))) :
    Simulates scope (expr compiler nested ⟨.binary op left right, note⟩)
      (Compile.expr compiler expand ⟨.binary op left right, note⟩) := by
  by_cases hShift : op = .shr
  · subst hShift
    rw [expr, if_pos rfl, Compile.expr]
    refine (simulates_case hBelow hCombines ?_ ?_).bind
      fun parts => .pure _
    all_goals
      simp
      omega
  · rw [expr, if_neg hShift, Compile.expr_binary hShift]
    cases hRange : Limited.of? ⟨.binary op left right, note⟩ with
    | some range =>
        have hLess := Limited.sizeOf_of? hRange
        exact (hBelow range.operand hLess).compiled.bind
          fun schema => .pure _
    | none => exact hResolve _

theorem simulates_unary
    {op : UnaryOp}
    {argument : Expr}
    {note : Note}
    (hBelow :
      AgreesBelow compiler expand scope nested
        (sizeOf (Expr.mk (.unary op argument) note))) :
    Simulates scope (expr compiler nested ⟨.unary op argument, note⟩)
      (Compile.expr compiler expand ⟨.unary op argument, note⟩) := by
  by_cases hNot : op = .not
  · subst hNot
    by_cases hPure :
        ∃ operand middle, argument = ⟨.unary .not operand, middle⟩
    · rcases hPure with ⟨⟨form, inner⟩, middle, rfl⟩
      cases form with
      | object members =>
          rw [expr, Compile.expr, ← Compile.literal_object members inner]
          refine (hBelow ⟨.object members, inner⟩ ?_).written
          simp
          omega
      | array elements =>
          rw [expr, Compile.expr]
          refine simulates_array hBelow ?_ true
          simp
          omega
      | _ =>
          rw [expr, Compile.expr]
          · exact .fail _ _
          all_goals simp
    · have hLone :
          ∀ operand middle,
            argument = ⟨.unary .not operand, middle⟩ → False :=
        fun operand middle hForm => hPure ⟨operand, middle, hForm⟩
      rw [expr, Compile.expr]
      · exact .fail _ _
      all_goals
        intros
        simp_all
  · rw [expr, Compile.expr]
    · cases Expr.number? ⟨.unary op argument, note⟩ with
      | some value => exact .pure _
      | none => exact .fail _ _
    all_goals simp_all

/- An expression is compiled alike, if its parts are. -/
theorem compiled_of_below
    (hResolve :
      ∀ e, Simulates scope (resolve nested e)
        (Compile.resolve expand e))
    {e : Expr}
    (hBelow : AgreesBelow compiler expand scope nested (sizeOf e))
    (hCombines :
      CombinesBelow compiler expand scope nested (sizeOf e)) :
    Simulates scope (expr compiler nested e)
      (Compile.expr compiler expand e) := by
  rcases e with ⟨form, note⟩
  cases form with
  | object members => exact simulates_object hBelow
  | logical op left right => exact simulates_logical hBelow hCombines
  | identifier name =>
      rw [expr, Compile.expr]
      exact hResolve _
  | member object property computed =>
      rw [expr, Compile.expr]
      exact hResolve _
  | null =>
      rw [expr, Compile.expr]
      exact hResolve _
  | string value =>
      rw [expr, Compile.expr]
      exact .pure _
  | boolean value =>
      rw [expr, Compile.expr]
      exact .pure _
  | regex pattern flags =>
      rw [expr, Compile.expr]
      exact .pure _
  | array elements =>
      rw [expr, Compile.expr]
      refine simulates_array hBelow ?_ false
      simp
      omega
  | call callee arguments =>
      rw [expr, Compile.expr]
      refine simulates_call hBelow ?_ (fun arg hArg => ?_) note
      · simp
        omega
      · have hLess := List.sizeOf_lt_of_mem hArg
        simp
        omega
  | assignment op target value =>
      cases op with
      | assign =>
          rw [expr, Compile.expr]
          refine (Simulates.check _).bind fun name => ?_
          refine (hBelow value ?_).compiled.bind
            fun schema => .register _ _ _
          simp
          omega
      | compound op =>
          rw [expr, Compile.expr]
          exact .fail _ _
  | conditional test consequent alternate =>
      rw [expr, Compile.expr]
      refine (hBelow test ?_).compiled.bind fun first => ?_
      · simp
        omega
      refine (hBelow consequent ?_).compiled.bind fun second => ?_
      · simp
        omega
      refine (hBelow alternate ?_).compiled.bind fun third => .pure _
      simp
      omega
  | arrow params body =>
      have hBody :
          sizeOf body < sizeOf (Expr.mk (.arrow params body) note) := by
        simp
        omega
      rcases params with _ | ⟨param, _ | ⟨second, others⟩⟩
      · rw [expr, Compile.expr]
        · exact (hBelow body hBody).compiled
        all_goals simp
      · rw [expr, Compile.expr]
        refine (Simulates.check _).bind fun name => ?_
        exact (hBelow body hBody).compiled.bind
          fun schema => .register _ _ _
      · rw [expr, Compile.expr]
        · exact (hBelow body hBody).compiled
        all_goals simp
  | binary op left right =>
      exact simulates_binary hResolve hBelow hCombines
  | unary op argument => exact simulates_unary hBelow
  | number value =>
      rw [expr, Compile.expr]
      · cases Expr.number? ⟨.number value, note⟩ with
        | some value => exact .pure _
        | none => exact .fail _ _
      all_goals simp
  | spread argument =>
      rw [expr, Compile.expr]
      · exact .fail _ _
      all_goals simp

end Machine

end SchemaLang
