import SchemaLang.Proofs.Compile.Association
import SchemaLang.Proofs.Compile.Closed
import SchemaLang.Proofs.Compile.Naming
import SchemaLang.Proofs.Compile.Plain

/-
  Items at places, written as an array literal or given to a method of
  arrays. The literal looks at the draft for the key of such items, and
  the method does not: they agree in the drafts in which the key is that
  of the method, and only there.

  Main declarations:
    * `Compile.tuple_eq_mapM`
    * `Compile.expr_places` and `Compile.outcome_itemsOf`
    * `Compile.items_agree_iff`
-/

namespace SchemaLang

namespace Compile

variable {compiler : Compiler}
variable {expand : Expand}
variable {elements : List Expr}

------------------------------------------------------------
-- Array Literals
------------------------------------------------------------

/- Elements without a spread are compiled one by one. -/
theorem tuple_eq_mapM
    (hPlain : ∀ element ∈ elements, ¬ element.isSpread = true) :
    tuple compiler expand elements =
      elements.mapM (expr compiler expand) := by
  induction elements with
  | nil =>
      rw [tuple]
      rfl
  | cons element others ih =>
      rw [List.forall_mem_cons] at hPlain
      rw [tuple, ih hPlain.2, List.mapM_cons]
      rintro argument note rfl
      exact hPlain.1 rfl

/- The schema of an array with items at places. -/
def positional
    (key : String)
    (items : List Schema) : Schema :=
  .object
    (OrderedMap.insert (.single "type" (.string "array")) key
      (.array items))

/- The elements of a literal are at places, under the draft's key. -/
theorem expr_places
    (hMany : 2 ≤ elements.length)
    (hPlain : ∀ element ∈ elements, ¬ element.isSpread = true)
    (note : Note) :
    expr compiler expand ⟨.array elements, note⟩ = (do
      let items ← elements.mapM (expr compiler expand)
      pure (positional (tupleKeys compiler.version).1 items)) := by
  match elements with
  | first :: second :: others =>
      rw [expr, array, arrayFault?_eq_none_of_plain hPlain,
        tuple_eq_mapM hPlain, rest_eq_pure hPlain]
      · cases compiler.version with
        | draft07 => rfl
        | draft2019 => rfl
        | draft2020 => rfl
      · simp
      · simp
      · simp

------------------------------------------------------------
-- The Method Of Arrays
------------------------------------------------------------

/- The call `array.items([ ... ])`. -/
def itemsOf
    (receiver property middle list called : Note)
    (elements : List Expr) : Expr :=
  ⟨.call
    ⟨.member ⟨.identifier "array", receiver⟩ ⟨.identifier "items", property⟩
      false, middle⟩
    [⟨.array elements, list⟩], called⟩

/- The method puts its items under one key, whatever the draft is. -/
theorem run_items
    (list : Note)
    (span : Span) :
    run compiler expand (Method.schema (some .array) "items" .items)
        (Registry.typed "array" [])
        ⟨"items", [⟨.array elements, list⟩], span⟩ = (do
      let items ← elements.mapM (expr compiler expand)
      pure (positional "items" items)) := by
  rw [run, Method.schema, evaluate, readArg, all_eq_mapM, bind_assoc]
  rfl

/- The result of the method is neither falsy nor named. -/
theorem outcome_itemsOf
    {registry : Registry}
    (hMethods : compiler.methods = Method.builtins)
    (hArray :
      registry.get? "array" = some (.compiled (Registry.typed "array" [])))
    (receiver property middle list called : Note) :
    outcome
        (expr compiler expand
          (itemsOf receiver property middle list called elements))
        registry =
      outcome
        (do
          let items ← elements.mapM (expr compiler expand)
          pure (positional "items" items))
        registry := by
  have hGet :
      compiler.methods.get? "items" =
        some (Method.schema (some .array) "items" .items) := by
    rw [hMethods]
    rfl
  have hReceiver :
      Yields registry (expr compiler expand ⟨.identifier "array", receiver⟩)
        (Registry.typed "array" []) :=
    yields_reference rfl hArray expand
  unfold itemsOf
  rw [expr_call_method rfl hGet, outcome_bind, hReceiver, andThen,
    run_items, bind_assoc]
  rfl

------------------------------------------------------------
-- Agreement
------------------------------------------------------------

/- The drafts whose key for items at places is that of the method. -/
theorem tupleKeys_eq_items_iff
    {version : Version} :
    (tupleKeys version).1 = "items" ↔ version ≠ .draft2020 := by
  cases version with
  | draft07 => decide
  | draft2019 => decide
  | draft2020 => decide

theorem positional_inj
    {key key' : String}
    {items : List Schema} :
    positional key items = positional key' items ↔ key = key' := by
  constructor
  · intro hSame
    have hGet := congrArg (Schema.get? · key) hSame
    simp only [positional, Schema.get?, Schema.fields?, Option.bind_some,
      OrderedMap.get?_insert, OrderedMap.get?_of, Pairs.get?_cons,
      Pairs.get?_nil] at hGet
    by_contra hOther
    rw [if_pos trivial, if_neg (Ne.symm hOther)] at hGet
    split at hGet <;> cases hGet
  · rintro rfl
    rfl

/-
  Items that are given to the method and items of a literal are the same
  computation in the drafts before 2020. From then on the two give the
  same items under different keys, for all elements that are compiled.
-/
theorem items_agree_iff
    (version : Version)
    (elements : List Expr)
    (receiver property middle list called whole : Note)
    (hMany : 2 ≤ elements.length)
    (hPlain : ∀ element ∈ elements, ¬ element.isSpread = true) :
    (version ≠ .draft2020 →
      outcome
          (compile { version := version }
            (itemsOf receiver property middle list called elements))
          Registry.initial =
        outcome (compile { version := version } ⟨.array elements, whole⟩)
          Registry.initial) ∧
    ∀ items after,
      outcome
          (all { version := version }
            (expandDeclared { version := version } Registry.initial)
            elements)
          Registry.initial =
        (.ok items, after) →
      outcome (compile { version := version } ⟨.array elements, whole⟩)
          Registry.initial =
        (.ok (positional (tupleKeys version).1 items), after) ∧
      outcome
          (compile { version := version }
            (itemsOf receiver property middle list called elements))
          Registry.initial =
        (.ok (positional "items" items), after) ∧
      (outcome
          (compile { version := version }
            (itemsOf receiver property middle list called elements))
          Registry.initial =
        outcome (compile { version := version } ⟨.array elements, whole⟩)
          Registry.initial ↔
        version ≠ .draft2020) := by
  rw [outcome_compile, outcome_compile, outcome_itemsOf rfl rfl,
    expr_places hMany hPlain]
  constructor
  · intro hVersion
    rw [tupleKeys_eq_items_iff.mpr hVersion]
  · intro items after hItems
    rw [all_eq_mapM, expandDeclared] at hItems
    rw [outcome_bind, outcome_bind, hItems]
    refine ⟨rfl, rfl, ?_⟩
    dsimp only [andThen]
    rw [outcome_pure, outcome_pure, Prod.mk.injEq, Except.ok.injEq,
      positional_inj, eq_comm, tupleKeys_eq_items_iff]
    simp

/- The names `int` and `string`, and what they stand for. -/
def twoNames : List Expr :=
  [⟨.identifier "int", {}⟩, ⟨.identifier "string", {}⟩]

def twoTypes : List Schema :=
  [.object (.single "type" (.string "integer")),
    .object (.single "type" (.string "string"))]

theorem yields_twoNames
    (compiler : Compiler)
    (expand : Expand) :
    Yields Registry.initial (all compiler expand twoNames) twoTypes := by
  have hSecond :
      Yields Registry.initial
        (all compiler expand [⟨.identifier "string", {}⟩])
        [.object (.single "type" (.string "string"))] := by
    rw [all, all]
    exact (yields_reference rfl rfl expand).bind
      ((Yields.pure []).bind (.pure _))
  unfold twoNames
  rw [all]
  exact (yields_reference rfl rfl expand).bind (hSecond.bind (.pure _))

/- In the draft of 2019 the two have the same key. -/
theorem items_agree_iff_twoNames :
    2 ≤ twoNames.length ∧
      (∀ element ∈ twoNames, ¬ element.isSpread = true) ∧
      outcome
          (compile { version := .draft2019 }
            (itemsOf {} {} {} {} {} twoNames))
          Registry.initial =
        (.ok (positional "items" twoTypes), Registry.initial) ∧
      outcome (compile { version := .draft2019 } ⟨.array twoNames, {}⟩)
          Registry.initial =
        (.ok (positional "items" twoTypes), Registry.initial) := by
  have hMany : 2 ≤ twoNames.length := by decide
  have hPlain : ∀ element ∈ twoNames, ¬ element.isSpread = true := by decide
  rcases items_agree_iff .draft2019 twoNames {} {} {} {} {} {} hMany
      hPlain with ⟨-, hAgree⟩
  rcases hAgree twoTypes Registry.initial (yields_twoNames _ _) with
    ⟨hLiteral, hItems, -⟩
  exact ⟨hMany, hPlain, hItems, hLiteral⟩

/- In the draft of 2020 they have not. -/
theorem items_differ_twoNames :
    outcome
        (compile { version := .draft2020 }
          (itemsOf {} {} {} {} {} twoNames))
        Registry.initial =
      (.ok (positional "items" twoTypes), Registry.initial) ∧
    outcome (compile { version := .draft2020 } ⟨.array twoNames, {}⟩)
        Registry.initial =
      (.ok (positional "prefixItems" twoTypes), Registry.initial) ∧
    positional "items" twoTypes ≠ positional "prefixItems" twoTypes := by
  have hTypes :=
    yields_twoNames { version := .draft2020 }
      (expandWithin { version := .draft2020 } Registry.initial.declaredNames)
  rw [all_eq_mapM] at hTypes
  have hMany : 2 ≤ twoNames.length := by decide
  have hPlain : ∀ element ∈ twoNames, ¬ element.isSpread = true := by decide
  refine ⟨?_, ?_, ?_⟩
  · rw [outcome_compile, outcome_itemsOf rfl rfl]
    exact hTypes.bind (.pure _)
  · rw [outcome_compile, expr_places hMany hPlain]
    exact hTypes.bind (.pure _)
  · rw [ne_eq, positional_inj]
    decide

end Compile

end SchemaLang
