import Mathlib.Data.List.Forall2
import SchemaLang.Proofs.Core.Faithful

/-
  Array literals accept what they say about items: about all of
  them, about one of them, or about the items at their places.

  Main declarations:
    * `Compile.tuple_yields`
    * `Compile.rest_yields`
    * `Compile.faithful_array`
    * `Compile.faithful_exactArray`
-/

namespace SchemaLang

namespace Compile

variable {compiler : Compiler}
variable {expand : Expand}
variable {validator : Validator}

------------------------------------------------------------
-- Elements Of Arrays
------------------------------------------------------------

/- A schema denotes what an element says. -/
def DenotesElement
    (validator : Validator)
    (schema : Schema)
    (element : Expr.Element) : Prop :=
  validator.Denotes schema element.means

/- The elements at places are compiled one by one. -/
theorem tuple_yields
    {elements : List Expr}
    (hElements :
      ∀ element ∈ elements,
        Faithful compiler expand validator element.content) :
    ∃ schemas,
      Yields Registry.initial (tuple compiler expand elements)
          schemas ∧
        List.Forall₂ (DenotesElement validator) schemas
          ((Expr.elementsOf validator elements).filter
            (!·.isSpread)) := by
  induction elements with
  | nil =>
      rw [tuple]
      exact ⟨[], Yields.pure [], .nil⟩
  | cons element rest ih =>
      rcases ih fun e he => hElements e (List.mem_cons_of_mem _ he) with
        ⟨schemas, hRest, hDenote⟩
      by_cases hSpread : element.isSpread = true
      · rcases element with ⟨form, note⟩
        cases form <;> simp [Expr.isSpread] at hSpread
        rename_i argument
        rw [tuple, Expr.elementsOf]
        exact ⟨schemas, hRest, by simpa using hDenote⟩
      · rcases hElements element (by simp) with
          ⟨schema, hFirst, hSchema⟩
        have hContent := Expr.content_of_not_isSpread hSpread
        rw [hContent] at hFirst hSchema
        refine ⟨schema :: schemas, ?_, ?_⟩
        · rw [tuple]
          · exact hFirst.bind (hRest.bind (Yields.pure _))
          · rintro argument note rfl
            exact hSpread rfl
        · rw [Expr.elementsOf]
          · simpa using ⟨hSchema, hDenote⟩
          · rintro argument note rfl
            exact hSpread rfl

/- The first spread is compiled, if there is one. -/
theorem rest_yields
    {elements : List Expr}
    (hElements :
      ∀ element ∈ elements,
        Faithful compiler expand validator element.content) :
    ∃ result,
      Yields Registry.initial (rest compiler expand elements) result ∧
        Option.Rel (DenotesElement validator) result
          ((Expr.elementsOf validator elements).filter
            (·.isSpread)).head? := by
  induction elements with
  | nil =>
      rw [rest]
      exact ⟨none, Yields.pure none, .none⟩
  | cons element others ih =>
      by_cases hSpread : element.isSpread = true
      · rcases hElements element (by simp) with
          ⟨schema, hFirst, hSchema⟩
        rcases element with ⟨form, note⟩
        cases form <;> simp [Expr.isSpread] at hSpread
        rename_i argument
        rw [rest, Expr.elementsOf]
        refine ⟨some schema, hFirst.bind (Yields.pure _), ?_⟩
        exact .some hSchema
      · rcases ih fun e he => hElements e (List.mem_cons_of_mem _ he) with
          ⟨result, hRest, hDenote⟩
        refine ⟨result, ?_, ?_⟩
        · rw [rest]
          · exact hRest
          · rintro argument note rfl
            exact hSpread rfl
        · rw [Expr.elementsOf]
          · simpa using hDenote
          · rintro argument note rfl
            exact hSpread rfl

------------------------------------------------------------
-- Items Of Arrays
------------------------------------------------------------

/- Items fit the schemas at their places if they fit the elements. -/
theorem positional_iff
    {schemas : List Schema}
    {places : List Expr.Element}
    (hDenote :
      List.Forall₂ (DenotesElement validator) schemas places)
    (items : List Document) :
    Validator.positional (schemas.map validator.accepts) items = true ↔
      ∀ (i : Nat) (item : Document) (element : Expr.Element),
        items[i]? = some item → places[i]? = some element →
          element.means item := by
  induction hDenote generalizing items with
  | nil => simp [Validator.positional]
  | cons hFirst hRest ih =>
      cases items with
      | nil => simp [Validator.positional]
      | cons item items =>
          have hInd := ih items
          simp only [Validator.positional, List.map_cons,
            List.zip_cons_cons, List.all_cons, Bool.and_eq_true]
            at hInd ⊢
          rw [hFirst.2 item, hInd]
          constructor
          · rintro ⟨hItem, hItems⟩ i
            cases i with
            | zero => simpa using hItem
            | succ i => simpa using hItems i
          · intro hAll
            exact ⟨by simpa using hAll 0, fun i => by simpa using hAll (i + 1)⟩

/- All items behind a number of places. -/
theorem forall_mem_drop_iff
    (means : Document → Prop)
    (count : Nat)
    (items : List Document) :
    (∀ item ∈ items.drop count, means item) ↔
      ∀ (i : Nat) (item : Document),
        items[i]? = some item → count ≤ i → means item := by
  constructor
  · intro hAll i item hItem hCount
    apply hAll item
    rw [List.mem_iff_getElem?]
    refine ⟨i - count, ?_⟩
    rw [List.getElem?_drop, Nat.add_sub_cancel' hCount]
    exact hItem
  · intro hAll item hItem
    rcases List.mem_iff_getElem?.mp hItem with ⟨i, hGet⟩
    rw [List.getElem?_drop] at hGet
    exact hAll (count + i) item hGet (Nat.le_add_right count i)

------------------------------------------------------------
-- Arrays
------------------------------------------------------------

/- No more than one spread is no fault, if the length is open. -/
theorem arrayFault?_eq_none
    {elements : List Expr}
    (hOne : (elements.filter Expr.isSpread).length ≤ 1) :
    arrayFault? elements false = none := by
  unfold arrayFault?
  split
  · rfl
  · rfl
  · rename_i hSpreads
    rw [hSpreads] at hOne
    simp at hOne

/- What a tuple says about the places, and about what is behind. -/
theorem isTuple_iff
    (elements : List Expr.Element)
    (v : Document) :
    Expr.IsTuple elements v ↔
      ∃ items, v = .array items ∧
        (∀ (i : Nat) (item : Document) (element : Expr.Element),
          items[i]? = some item →
            (elements.filter (!·.isSpread))[i]? = some element →
              element.means item) ∧
        ∀ (i : Nat) (item : Document),
          items[i]? = some item →
            (elements.filter (!·.isSpread)).length ≤ i →
              ∀ spread ∈ elements.filter (·.isSpread),
                spread.means item := by
  unfold Expr.IsTuple
  simp only
  refine exists_congr fun items => and_congr_right fun _ => ?_
  constructor
  · intro hAll
    refine ⟨fun i item element hItem hElement => ?_,
      fun i item hItem hBehind => ?_⟩
    · have hAt := hAll i item hItem
      rw [hElement] at hAt
      exact hAt
    · have hAt := hAll i item hItem
      rw [List.getElem?_eq_none hBehind] at hAt
      exact hAt
  · rintro ⟨hPlaces, hBehind⟩ i item hItem
    split
    · rename_i element hElement
      exact hPlaces i item element hItem hElement
    · rename_i hNone
      exact hBehind i item hItem (List.getElem?_eq_none_iff.mp hNone)

/- The single element of an array is about all items or about one. -/
theorem faithful_array_single
    {element : Expr}
    (hElement : Faithful compiler expand validator element.content)
    (note : Note) :
    Faithful compiler expand validator ⟨.array [element], note⟩ := by
  rcases hElement with ⟨schema, hSchema, hMap, hDenotes⟩
  unfold Faithful
  rw [expr, Expr.Means]
  by_cases hSpread : element.isSpread = true
  · rcases element with ⟨form, elementNote⟩
    cases form <;> simp [Expr.isSpread] at hSpread
    rename_i argument
    rw [array]
    refine ⟨_, hSchema.bind (Yields.pure _), rfl, fun v => ?_⟩
    rw [Validator.accepts_contains]
    cases v with
    | array items =>
        simp only [List.any_eq_true, hDenotes, Expr.elementsOf,
          Expr.IsArray, if_true, Document.array.injEq,
          exists_eq_left']
        rfl
    | _ => simp [Expr.IsArray]
  · rw [Expr.content_of_not_isSpread hSpread] at hSchema hDenotes
    rcases schema with _ | _ | _ | _ | _ | fields | _ <;>
      simp [Schema.isMap, Schema.fields?] at hMap
    rw [array]
    · refine ⟨_, hSchema.bind (Yields.pure _), rfl, fun v => ?_⟩
      rw [Validator.accepts_items, Expr.elementsOf]
      · cases v with
        | array items =>
            simp only [Validator.hasLength, Bool.not_false,
              Bool.true_or, Bool.true_and, List.all_eq_true, hDenotes,
              Expr.elementsOf, Expr.IsArray, Bool.false_eq_true,
              if_false, Document.array.injEq, exists_eq_left']
        | _ => simp [Expr.IsArray]
      · rintro argument elementNote rfl
        exact hSpread rfl
    · rintro argument elementNote rfl
      exact hSpread rfl

/- As many elements are spreads as are written as such. -/
theorem length_spreads
    (validator : Validator)
    (elements : List Expr) :
    ((Expr.elementsOf validator elements).filter
        (·.isSpread)).length =
      (elements.filter Expr.isSpread).length := by
  induction elements with
  | nil => rfl
  | cons element rest ih =>
      by_cases hSpread : element.isSpread = true
      · rcases element with ⟨form, note⟩
        cases form <;> simp [Expr.isSpread] at hSpread
        rw [Expr.elementsOf, List.filter_cons_of_pos rfl,
          List.filter_cons_of_pos rfl, List.length_cons,
          List.length_cons, ih]
      · rw [Expr.elementsOf]
        · simpa [hSpread] using ih
        · rintro argument note rfl
          exact hSpread rfl

/- There is one meaning for each element. -/
theorem length_elementsOf
    (elements : List Expr) :
    (Expr.elementsOf validator elements).length = elements.length := by
  induction elements with
  | nil => rfl
  | cons element rest ih =>
      unfold Expr.elementsOf
      split <;> simp_all

/- Elements other than a single one are a tuple. -/
theorem isArray_eq_isTuple
    {elements : List Expr.Element}
    (hLength : elements.length ≠ 1) :
    Expr.IsArray elements = Expr.IsTuple elements := by
  funext v
  unfold Expr.IsArray
  split
  · simp at hLength
  · rfl

/- Two elements or more are about the items at their places. -/
theorem faithful_array_tuple
    {first second : Expr}
    {others : List Expr}
    (hVersion : compiler.version = validator.version)
    (hElements :
      ∀ element ∈ first :: second :: others,
        Faithful compiler expand validator element.content)
    (hOne :
      ((first :: second :: others).filter Expr.isSpread).length ≤ 1)
    (note : Note) :
    Faithful compiler expand validator
      ⟨.array (first :: second :: others), note⟩ := by
  rcases tuple_yields hElements with ⟨schemas, hTuple, hPlaces⟩
  rcases rest_yields hElements with ⟨result, hRest, hSpread⟩
  have hSpreads := length_spreads validator (first :: second :: others)
  have hLength := hPlaces.length_eq
  have hMany :
      (Expr.elementsOf validator
        (first :: second :: others)).length ≠ 1 := by
    rw [length_elementsOf]
    simp
  unfold Faithful
  rw [expr, array, arrayFault?_eq_none hOne, hVersion, Expr.Means,
    isArray_eq_isTuple hMany]
  · rw [← hSpreads] at hOne
    generalize Expr.elementsOf validator (first :: second :: others) =
      elements at *
    cases hList : elements.filter (·.isSpread) with
    | nil =>
        rw [hList] at hSpread
        cases hSpread
        refine ⟨.object (OrderedMap.insert (arrayFields _ false)
          (tupleKeys validator.version).1 (.array schemas)),
          hTuple.bind (hRest.bind (Yields.pure _)), rfl,
          fun v => ?_⟩
        rw [Validator.accepts_tuple, isTuple_iff]
        cases v with
        | array items =>
            simp [Validator.hasLength, positional_iff hPlaces, hList]
        | _ => simp
    | cons spread more =>
        rw [hList] at hSpread hOne
        have hSingle : more = [] := by
          simpa using hOne
        subst hSingle
        cases hSpread with
        | @some schema _ hOther =>
            refine ⟨.object ((OrderedMap.insert (arrayFields _ false)
              (tupleKeys validator.version).1 (.array schemas)).insert
                (tupleKeys validator.version).2 schema),
              hTuple.bind (hRest.bind (Yields.pure _)), rfl,
              fun v => ?_⟩
            rw [Validator.accepts_tuple_rest, isTuple_iff]
            cases v with
            | array items =>
                simp [positional_iff hPlaces, forall_mem_drop_iff, hList,
                  hLength, hOther.2]
            | _ => simp
  · simp
  · simp
  · simp

theorem faithful_array
    {elements : List Expr}
    (hVersion : compiler.version = validator.version)
    (hElements :
      ∀ element ∈ elements,
        Faithful compiler expand validator element.content)
    (hOne : (elements.filter Expr.isSpread).length ≤ 1)
    (note : Note) :
    Faithful compiler expand validator ⟨.array elements, note⟩ := by
  rcases elements with _ | ⟨element, _ | ⟨second, others⟩⟩
  · unfold Faithful
    rw [expr, Expr.Means, array]
    refine ⟨_, Yields.pure _, rfl, fun v => ?_⟩
    rw [Validator.accepts_arrayFields]
    cases v <;>
      simp [Validator.hasLength, Expr.IsArray, Expr.IsTuple]
  · exact faithful_array_single (hElements element (by simp)) note
  · exact faithful_array_tuple hVersion hElements hOne note

------------------------------------------------------------
-- Exact Arrays
------------------------------------------------------------

theorem length_meanings
    (elements : List Expr) :
    (Expr.meanings validator elements).length = elements.length := by
  induction elements with
  | nil => rfl
  | cons element rest ih => simp [ih]

/- Without spreads, the elements say what the expressions do. -/
theorem map_means_elementsOf
    {elements : List Expr}
    (hPlain : ∀ element ∈ elements, ¬ element.isSpread = true) :
    ((Expr.elementsOf validator elements).filter
        (!·.isSpread)).map (·.means) =
      Expr.meanings validator elements := by
  induction elements with
  | nil => rfl
  | cons element rest ih =>
      have hRest := ih fun e he => hPlain e (List.mem_cons_of_mem _ he)
      rw [Expr.elementsOf, Expr.meanings]
      · simpa using hRest
      · rintro argument note rfl
        exact hPlain _ List.mem_cons_self rfl

/- Items are one by one as the elements say. -/
theorem isExactArray_iff
    (places : List Expr.Element)
    (items : List Document) :
    Expr.IsExactArray (places.map (·.means)) (.array items) ↔
      items.length = places.length ∧
        ∀ (i : Nat) (item : Document) (element : Expr.Element),
          items[i]? = some item → places[i]? = some element →
            element.means item := by
  simp only [Expr.IsExactArray, Document.array.injEq,
    exists_eq_left', List.forall₂_map_left_iff]
  constructor
  · intro hForall
    refine ⟨hForall.length_eq.symm, ?_⟩
    intro i item element hItem hElement
    rw [List.forall₂_iff_get] at hForall
    rcases List.getElem?_eq_some_iff.mp hItem with ⟨hLess, rfl⟩
    rcases List.getElem?_eq_some_iff.mp hElement with ⟨hPlace, rfl⟩
    exact hForall.2 i hPlace hLess
  · rintro ⟨hLength, hAll⟩
    rw [List.forall₂_iff_get]
    refine ⟨hLength.symm, fun i hPlace hLess => ?_⟩
    exact hAll i _ _ (List.getElem?_eq_getElem hLess)
      (List.getElem?_eq_getElem hPlace)

/- The single element of an exact array is about its single item. -/
theorem exactArray_single_yields
    {element : Expr}
    (hElement : Faithful compiler expand validator element)
    (hPlain : ¬ element.isSpread = true) :
    ∃ schema,
      Yields Registry.initial (array compiler expand [element] true)
          schema ∧
        validator.Denotes schema
          (Expr.IsExactArray (Expr.meanings validator [element])) := by
  rcases hElement with ⟨schema, hSchema, hMap, hDenotes⟩
  rcases schema with _ | _ | _ | _ | _ | fields | _ <;>
    simp [Schema.isMap, Schema.fields?] at hMap
  rw [array]
  · refine ⟨_, hSchema.bind (Yields.pure _), rfl, fun v => ?_⟩
    rw [Validator.accepts_items]
    cases v with
    | array items =>
        rcases items with _ | ⟨item, _ | ⟨second, others⟩⟩
        · simp [Validator.hasLength, Expr.IsExactArray]
        · simp [Validator.hasLength, Expr.IsExactArray, hDenotes]
        · simp [Validator.hasLength, Expr.IsExactArray]
    | _ => simp [Expr.IsExactArray]
  · rintro argument note rfl
    exact hPlain rfl

/- Two elements or more are about as many items. -/
theorem exactArray_tuple_yields
    {first second : Expr}
    {others : List Expr}
    (hVersion : compiler.version = validator.version)
    (hElements :
      ∀ element ∈ first :: second :: others,
        Faithful compiler expand validator element)
    (hPlain :
      ∀ element ∈ first :: second :: others,
        ¬ element.isSpread = true) :
    ∃ schema,
      Yields Registry.initial
          (array compiler expand (first :: second :: others) true)
          schema ∧
        validator.Denotes schema
          (Expr.IsExactArray
            (Expr.meanings validator (first :: second :: others))) := by
  have hContents :
      ∀ element ∈ first :: second :: others,
        Faithful compiler expand validator element.content := by
    intro element hElement
    rw [Expr.content_of_not_isSpread (hPlain element hElement)]
    exact hElements element hElement
  rcases tuple_yields hContents with ⟨schemas, hTuple, hPlaces⟩
  have hRest :
      Yields Registry.initial
        (rest compiler expand (first :: second :: others)) none :=
    rest_yields_none hPlain _
  rw [← map_means_elementsOf hPlain, array,
    arrayFault?_eq_none_of_plain hPlain, hVersion]
  · have hLength :
        ((Expr.elementsOf validator
          (first :: second :: others)).filter (!·.isSpread)).length =
          (first :: second :: others).length := by
      rw [← List.length_map (·.means), map_means_elementsOf hPlain,
        length_meanings]
    rw [← hLength]
    refine ⟨.object (OrderedMap.insert (arrayFields _ true)
      (tupleKeys validator.version).1 (.array schemas)),
      hTuple.bind (hRest.bind (Yields.pure _)), rfl, fun v => ?_⟩
    rw [Validator.accepts_tuple]
    cases v with
    | array items =>
        rw [isExactArray_iff, ← positional_iff hPlaces,
          Bool.and_eq_true]
        apply and_congr_left'
        simp only [Validator.hasLength, Bool.not_true, Bool.false_or,
          Bool.and_eq_true, decide_eq_true_eq]
        omega
    | _ => simp [Expr.IsExactArray]
  · simp
  · simp
  · simp

theorem faithful_exactArray
    {elements : List Expr}
    (hVersion : compiler.version = validator.version)
    (hElements :
      ∀ element ∈ elements,
        Faithful compiler expand validator element)
    (hPlain : ∀ element ∈ elements, ¬ element.isSpread = true)
    (inner middle note : Note) :
    Faithful compiler expand validator
      ⟨.unary .not ⟨.unary .not ⟨.array elements, inner⟩, middle⟩,
        note⟩ := by
  unfold Faithful
  rw [expr, Expr.Means]
  rcases elements with _ | ⟨element, _ | ⟨second, others⟩⟩
  · rw [array]
    refine ⟨_, Yields.pure _, rfl, fun v => ?_⟩
    rw [Validator.accepts_arrayFields]
    cases v <;>
      simp [Validator.hasLength, Expr.IsExactArray]
  · exact exactArray_single_yields (hElements element (by simp))
      (hPlain element (by simp))
  · exact exactArray_tuple_yields hVersion hElements hPlain

end Compile

end SchemaLang
