import Mathlib.Data.List.Lex
import Mathlib.Tactic.Common
import SchemaLang.Proofs.Error
import SchemaLang.Proofs.OrderedMap
import SchemaLang.Schema.Document

/-
  Schemas and documents correspond. The documents are the schemas
  without removals. If removals are left in a schema, the error is at
  the first of them, where a place comes before another if it does so
  at the outermost level at which the two differ.

  Main declarations:
    * `Schema.children` and `Schema.at?`
    * `Schema.FirstRemoval`
    * `Schema.toDocument_eq_ok_iff`
    * `Schema.toDocument_eq_error_iff`
    * `Schema.documents_correspond`
-/

namespace SchemaLang.Schema

------------------------------------------------------------
-- Places Within A Schema
------------------------------------------------------------

/- The schemas that stand directly within a schema, in their order. -/
def children : Schema → List Schema
  | array items => items
  | object fields => fields.toList.map Prod.snd
  | _ => []

/-
  What stands at a place of a schema. A place lists positions, from
  the outermost level inwards.
-/
def at?
    (schema : Schema) : (place : List Nat) → Option Schema
  | [] => some schema
  | position :: place =>
    schema.children[position]?.bind fun child => child.at? place

/- A removal that was written at `span` stands at a place. -/
def RemovalAt
    (schema : Schema)
    (place : List Nat)
    (span : Span) : Prop :=
  schema.at? place = some (removal span)

/- The first removal was written at `span`. -/
def FirstRemoval
    (schema : Schema)
    (span : Span) : Prop :=
  ∃ place,
    schema.RemovalAt place span ∧
      ∀ other span', schema.RemovalAt other span' →
        other = place ∨ List.Lex (· < ·) place other

theorem sizeOf_lt_of_mem_children
    {child schema : Schema}
    (hChild : child ∈ schema.children) :
    sizeOf child < sizeOf schema := by
  cases schema with
  | array items =>
      have hSize : sizeOf child < sizeOf items :=
        List.sizeOf_lt_of_mem hChild
      simp only [array.sizeOf_spec]
      omega
  | object fields =>
      rcases List.mem_map.mp hChild with ⟨entry, hEntry, rfl⟩
      have hSize := OrderedMap.sizeOf_lt_of_mem hEntry
      rw [object.sizeOf_spec]
      omega
  | _ => cases hChild

/- A fact that passes from what is within a schema to the schema. -/
theorem forall_of_children
    {known : Schema → Prop}
    (hStep :
      ∀ schema, (∀ child ∈ schema.children, known child) → known schema)
    (schema : Schema) :
    known schema :=
  hStep schema fun child hChild =>
    have := sizeOf_lt_of_mem_children hChild
    forall_of_children hStep child
termination_by sizeOf schema

/- A place within a removal is that of the removal itself. -/
theorem removalAt_removal_iff
    {span span' : Span}
    {place : List Nat} :
    (removal span).RemovalAt place span' ↔ place = [] ∧ span = span' := by
  unfold RemovalAt
  cases place with
  | nil => simp [at?]
  | cons position place => simp [at?, children]

theorem removalAt_cons_iff
    {schema : Schema}
    {position : Nat}
    {place : List Nat}
    {span : Span} :
    schema.RemovalAt (position :: place) span ↔
      ∃ child, schema.children[position]? = some child ∧
        child.RemovalAt place span := by
  unfold RemovalAt
  rw [at?, Option.bind_eq_some_iff]

/- Any other schema has its removals within its children. -/
theorem exists_of_removalAt
    {schema : Schema}
    (hSchema : schema.isRemoval = false)
    {place : List Nat}
    {span : Span}
    (hRemoval : schema.RemovalAt place span) :
    ∃ position inner child,
      place = position :: inner ∧
        schema.children[position]? = some child ∧
        child.RemovalAt inner span := by
  cases place with
  | nil =>
      cases Option.some.inj hRemoval
      cases hSchema
  | cons position inner =>
      rcases removalAt_cons_iff.mp hRemoval with ⟨child, hChild, hInner⟩
      exact ⟨position, inner, child, rfl, hChild, hInner⟩

/- There are not two first removals. -/
theorem FirstRemoval.unique
    {schema : Schema}
    {span span' : Span}
    (hFirst : schema.FirstRemoval span)
    (hOther : schema.FirstRemoval span') :
    span = span' := by
  rcases hFirst with ⟨place, hPlace, hLeast⟩
  rcases hOther with ⟨place', hPlace', hLeast'⟩
  have hSame : place = place' := by
    rcases hLeast place' span' hPlace' with hEqual | hLess
    · exact hEqual.symm
    · rcases hLeast' place span hPlace with hEqual | hMore
      · exact hEqual
      · exact absurd hMore (asymm hLess)
  subst hSame
  cases hPlace.symm.trans hPlace'
  rfl

------------------------------------------------------------
-- From Schemas To Documents
------------------------------------------------------------

/- What is done to a result does not make it fail. -/
theorem map_eq_error_iff {α β : Type}
    {result : Except CompileError α}
    {change : α → β}
    {error : CompileError} :
    (do
      let a ← result
      pure (change a) : Except CompileError β) = .error error ↔
      result = .error error := by
  cases result with
  | ok a => exact ⟨nofun, nofun⟩
  | error other =>
      constructor
      · intro hSame
        cases hSame
        rfl
      · intro hSame
        cases hSame
        rfl

/- The values of a row fail as the elements of a list do. -/
theorem toRow_eq_error_iff
    {names : List String}
    (row : OrderedMap.Row Schema names)
    (error : CompileError) :
    toRow row = .error error ↔
      toDocuments (row.toPairs.map Prod.snd) = .error error := by
  induction row with
  | nil => exact ⟨nofun, nofun⟩
  | cons key value rest hNew ih =>
      rw [toRow, OrderedMap.Row.toPairs, List.map_cons, toDocuments]
      cases value.toDocument with
      | error other => exact ⟨fun hSame => by cases hSame; rfl,
          fun hSame => by cases hSame; rfl⟩
      | ok document =>
          exact map_eq_error_iff.trans (ih.trans map_eq_error_iff.symm)

/- A schema fails as its children do, if it is no removal itself. -/
theorem toDocument_eq_error_iff_children
    {schema : Schema}
    (hSchema : schema.isRemoval = false)
    (error : CompileError) :
    schema.toDocument = .error error ↔
      toDocuments schema.children = .error error := by
  cases schema with
  | removal span => cases hSchema
  | array items => rw [toDocument, children, map_eq_error_iff]
  | object fields =>
      rw [toDocument, children, map_eq_error_iff, toRow_eq_error_iff]
      rfl
  | _ => exact ⟨nofun, nofun⟩

/- A list fails as the first of its elements that does. -/
theorem exists_of_toDocuments_eq_error
    {items : List Schema}
    {error : CompileError}
    (hFails : toDocuments items = .error error) :
    ∃ (position : Nat) (item : Schema),
      items[position]? = some item ∧ item.toDocument = .error error ∧
        ∀ earlier < position, ∀ other, items[earlier]? = some other →
          ∃ document, other.toDocument = .ok document := by
  induction items with
  | nil => cases hFails
  | cons item rest ih =>
      cases hItem : item.toDocument with
      | error other =>
          rw [toDocuments, hItem] at hFails
          cases hFails
          exact ⟨0, item, rfl, hItem, fun _ hLess => absurd hLess (by simp)⟩
      | ok document =>
          rw [toDocuments, hItem] at hFails
          have hRest : toDocuments rest = .error error :=
            map_eq_error_iff.mp hFails
          rcases ih hRest with ⟨position, found, hFound, hError, hEarlier⟩
          refine ⟨position + 1, found, hFound, hError, ?_⟩
          intro earlier hLess other hOther
          cases earlier with
          | zero =>
              cases Option.some.inj hOther
              exact ⟨document, hItem⟩
          | succ earlier =>
              exact hEarlier earlier (Nat.lt_of_succ_lt_succ hLess) other
                hOther

/- The elements of a list that does not fail do not fail. -/
theorem exists_of_toDocuments_eq_ok
    {items : List Schema}
    {documents : List Document}
    (hOk : toDocuments items = .ok documents)
    {item : Schema}
    (hItem : item ∈ items) :
    ∃ document, item.toDocument = .ok document := by
  induction items generalizing documents with
  | nil => cases hItem
  | cons first rest ih =>
      rw [toDocuments] at hOk
      rcases exists_of_bind_eq_ok hOk with ⟨document, hFirst, hRest⟩
      rcases exists_of_bind_eq_ok hRest with ⟨others, hOthers, -⟩
      rcases List.mem_cons.mp hItem with rfl | hLater
      · exact ⟨document, hFirst⟩
      · exact ih hOthers hLater

/-
  How removals decide whether a schema has a document: none is left in
  it, or the error is at the first.
-/
def Judged
    (schema : Schema) : Prop :=
  match schema.toDocument with
  | .ok _ => ∀ place span, ¬ schema.RemovalAt place span
  | .error error =>
    ∃ span, schema.FirstRemoval span ∧ error = ⟨.strayRemoval, span⟩

theorem Judged.not_removalAt
    {schema : Schema}
    (hJudged : schema.Judged)
    {document : Document}
    (hOk : schema.toDocument = .ok document)
    (place : List Nat)
    (span : Span) :
    ¬ schema.RemovalAt place span := by
  unfold Judged at hJudged
  rw [hOk] at hJudged
  exact hJudged place span

theorem Judged.firstRemoval
    {schema : Schema}
    (hJudged : schema.Judged)
    {error : CompileError}
    (hFails : schema.toDocument = .error error) :
    ∃ span, schema.FirstRemoval span ∧ error = ⟨.strayRemoval, span⟩ := by
  unfold Judged at hJudged
  rw [hFails] at hJudged
  exact hJudged

/- The first removal of the first child with one is the first of all. -/
theorem firstRemoval_of_child
    {schema child : Schema}
    (hSchema : schema.isRemoval = false)
    {position : Nat}
    (hChild : schema.children[position]? = some child)
    {span : Span}
    (hFirst : child.FirstRemoval span)
    (hEarlier :
      ∀ earlier < position, ∀ other,
        schema.children[earlier]? = some other →
          ∀ place span', ¬ other.RemovalAt place span') :
    schema.FirstRemoval span := by
  rcases hFirst with ⟨place, hPlace, hLeast⟩
  refine ⟨position :: place,
    removalAt_cons_iff.mpr ⟨child, hChild, hPlace⟩, ?_⟩
  intro other span' hOther
  rcases exists_of_removalAt hSchema hOther with
    ⟨position', inner, child', rfl, hChild', hInner⟩
  rcases Nat.lt_trichotomy position position' with hLess | rfl | hMore
  · exact .inr (.rel hLess)
  · cases hChild.symm.trans hChild'
    rcases hLeast inner span' hInner with rfl | hLater
    · exact .inl rfl
    · exact .inr (.cons hLater)
  · exact absurd hInner (hEarlier position' hMore child' hChild' inner span')

/- The induction is on the schema, by way of its children. -/
theorem judged
    (schema : Schema) :
    schema.Judged := by
  refine forall_of_children ?_ schema
  intro schema hChildren
  cases hSchema : schema.isRemoval with
  | true =>
      cases schema with
      | removal span =>
          refine ⟨span, ⟨[], rfl, ?_⟩, rfl⟩
          intro other span' hOther
          exact .inl (removalAt_removal_iff.mp hOther).1
      | _ => cases hSchema
  | false =>
      unfold Judged
      cases hDocument : schema.toDocument with
      | ok document =>
          intro place span hRemoval
          rcases exists_of_removalAt hSchema hRemoval with
            ⟨position, inner, child, rfl, hChild, hInner⟩
          have hMember := List.mem_of_getElem? hChild
          cases hItems : toDocuments schema.children with
          | error error =>
              rw [← toDocument_eq_error_iff_children hSchema,
                hDocument] at hItems
              cases hItems
          | ok documents =>
              rcases exists_of_toDocuments_eq_ok hItems hMember with
                ⟨found, hFound⟩
              exact (hChildren child hMember).not_removalAt hFound inner span
                hInner
      | error error =>
          rw [toDocument_eq_error_iff_children hSchema] at hDocument
          rcases exists_of_toDocuments_eq_error hDocument with
            ⟨position, child, hChild, hError, hEarlier⟩
          rcases (hChildren child (List.mem_of_getElem? hChild)).firstRemoval
              hError with ⟨span, hFirst, rfl⟩
          refine ⟨span, firstRemoval_of_child hSchema hChild hFirst ?_, rfl⟩
          intro earlier hLess other hOther
          rcases hEarlier earlier hLess other hOther with ⟨found, hFound⟩
          exact (hChildren other (List.mem_of_getElem? hOther)).not_removalAt
            hFound

/- A schema has no document exactly if a removal is left in it. -/
theorem exists_error_iff
    (schema : Schema) :
    (∃ error, schema.toDocument = .error error) ↔
      ∃ place span, schema.RemovalAt place span := by
  constructor
  · rintro ⟨error, hFails⟩
    rcases schema.judged.firstRemoval hFails with
      ⟨span, ⟨place, hPlace, -⟩, -⟩
    exact ⟨place, span, hPlace⟩
  · rintro ⟨place, span, hRemoval⟩
    cases hDocument : schema.toDocument with
    | ok document =>
        exact absurd hRemoval
          (schema.judged.not_removalAt hDocument place span)
    | error error => exact ⟨error, rfl⟩

/- The error is at the first removal. -/
theorem toDocument_eq_error_iff
    (schema : Schema)
    (error : CompileError) :
    schema.toDocument = .error error ↔
      ∃ span, schema.FirstRemoval span ∧ error = ⟨.strayRemoval, span⟩ := by
  constructor
  · exact schema.judged.firstRemoval
  · rintro ⟨span, hFirst, rfl⟩
    rcases hFirst with ⟨place, hPlace, hLeast⟩
    rcases (exists_error_iff schema).mpr ⟨place, span, hPlace⟩ with
      ⟨error, hFails⟩
    rcases schema.judged.firstRemoval hFails with ⟨span', hFirst', rfl⟩
    rw [hFails, hFirst'.unique ⟨place, hPlace, hLeast⟩]

-- The removal in the list is the deeper one, but it comes first.
example
    (inner outer : Span) :
    toDocument
        (object
          (.of [("a", array [null, removal inner]), ("b", removal outer)])) =
      .error ⟨.strayRemoval, inner⟩ := rfl

------------------------------------------------------------
-- Back To Schemas
------------------------------------------------------------

mutual

/- The document of the schema of a document is the document. -/
theorem toDocument_ofDocument
    (document : Document) :
    (ofDocument document).toDocument = .ok document := by
  cases document with
  | array items =>
      rw [ofDocument, toDocument, toDocuments_ofDocuments items]
      rfl
  | object fields =>
      rw [ofDocument, toDocument, toRow_ofRow fields.row]
      rfl
  | _ => rfl

theorem toDocuments_ofDocuments
    (items : List Document) :
    toDocuments (ofDocuments items) = .ok items := by
  cases items with
  | nil => rfl
  | cons item rest =>
      rw [ofDocuments, toDocuments, toDocument_ofDocument item,
        toDocuments_ofDocuments rest]
      rfl

theorem toRow_ofRow
    {names : List String}
    (row : OrderedMap.Row Document names) :
    toRow (ofRow row) = .ok row := by
  match row with
  | .nil => rfl
  | .cons key value rest hNew =>
      rw [ofRow, toRow, toDocument_ofDocument value, toRow_ofRow rest]
      rfl

end

mutual

/- The schema of the document of a schema is the schema. -/
theorem ofDocument_of_toDocument
    {schema : Schema}
    {document : Document}
    (hOk : schema.toDocument = .ok document) :
    ofDocument document = schema := by
  cases schema with
  | array items =>
      rcases exists_of_bind_eq_ok hOk with ⟨documents, hItems, hSame⟩
      cases hSame
      rw [ofDocument, ofDocuments_of_toDocuments hItems]
  | object fields =>
      rcases exists_of_bind_eq_ok hOk with ⟨row, hRow, hSame⟩
      cases hSame
      rw [ofDocument, ofRow_of_toRow hRow]
  | removal span => cases hOk
  | _ =>
      cases hOk
      rfl

theorem ofDocuments_of_toDocuments
    {items : List Schema}
    {documents : List Document}
    (hOk : toDocuments items = .ok documents) :
    ofDocuments documents = items := by
  cases items with
  | nil =>
      cases hOk
      rfl
  | cons item rest =>
      rcases exists_of_bind_eq_ok hOk with ⟨first, hFirst, hRest⟩
      rcases exists_of_bind_eq_ok hRest with ⟨others, hOthers, hSame⟩
      cases hSame
      rw [ofDocuments, ofDocument_of_toDocument hFirst,
        ofDocuments_of_toDocuments hOthers]

theorem ofRow_of_toRow
    {names : List String}
    {row : OrderedMap.Row Schema names}
    {documents : OrderedMap.Row Document names}
    (hOk : toRow row = .ok documents) :
    ofRow documents = row := by
  cases row with
  | nil =>
      cases hOk
      rfl
  | cons key value rest hNew =>
      rcases exists_of_bind_eq_ok hOk with ⟨first, hFirst, hRest⟩
      rcases exists_of_bind_eq_ok hRest with ⟨others, hOthers, hSame⟩
      cases hSame
      rw [ofRow, ofDocument_of_toDocument hFirst, ofRow_of_toRow hOthers]

end

theorem toDocument_eq_ok_iff
    (schema : Schema)
    (document : Document) :
    schema.toDocument = .ok document ↔ ofDocument document = schema := by
  constructor
  · exact ofDocument_of_toDocument
  · rintro rfl
    exact toDocument_ofDocument document

/-
  A schema has no document exactly if a removal is left in it at some
  place, and then the error is one of syntax, at the first removal.
  Otherwise the schema of its document is the schema itself, with all
  keys in their order; and every document is that of its schema.
-/
theorem documents_correspond :
    (∀ schema : Schema,
      ((∃ error, schema.toDocument = .error error) ↔
        ∃ place span, schema.RemovalAt place span) ∧
      (∀ error,
        schema.toDocument = .error error ↔
          ∃ span,
            schema.FirstRemoval span ∧
              error = ⟨.strayRemoval, span⟩ ∧
              error.cause.sort = .syntactic) ∧
      ∀ document,
        schema.toDocument = .ok document ↔
          ofDocument document = schema) ∧
    ∀ document, (ofDocument document).toDocument = .ok document := by
  refine ⟨fun schema => ⟨exists_error_iff schema, ?_,
    toDocument_eq_ok_iff schema⟩, toDocument_ofDocument⟩
  intro error
  rw [toDocument_eq_error_iff]
  refine exists_congr fun span => and_congr_right fun _ => ?_
  constructor
  · rintro rfl
    exact ⟨rfl, rfl⟩
  · exact And.left

end SchemaLang.Schema
