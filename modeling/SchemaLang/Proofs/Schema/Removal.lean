import Mathlib.Tactic.Common
import SchemaLang.Proofs.OrderedMap
import SchemaLang.Schema.Document

/-
  Removals that are left in a schema, and why a schema has no
  document: it has one exactly if it holds no removal.

  Main declarations:
    * `Schema.holdsRemoval`
    * `Schema.isOk_toDocument`
    * `Schema.holdsRemoval_describe`
-/

namespace SchemaLang.Schema

mutual

/- Whether a removal is left anywhere in a schema. -/
def holdsRemoval : Schema → Bool
  | removal _ => true
  | array items => itemsHoldRemoval items
  | object ⟨_, row⟩ => rowHoldsRemoval row
  | _ => false

/- Whether a removal is left in the elements of a list. -/
def itemsHoldRemoval : List Schema → Bool
  | [] => false
  | item :: rest => holdsRemoval item || itemsHoldRemoval rest

/- Whether a removal is left in the values of a row. -/
def rowHoldsRemoval
    {names : List String} : OrderedMap.Row Schema names → Bool
  | .nil => false
  | .cons _ value rest _ => holdsRemoval value || rowHoldsRemoval rest

end

/- A computation succeeds as often as its two parts do. -/
theorem isOk_pair {α β γ : Type}
    (first : Except CompileError α)
    (second : Except CompileError β)
    (join : α → β → γ) :
    (do
      let a ← first
      let b ← second
      pure (join a b) : Except CompileError γ).isOk =
      (first.isOk && second.isOk) := by
  cases first <;> cases second <;> rfl

theorem isOk_map {α β : Type}
    (result : Except CompileError α)
    (change : α → β) :
    (do
      let a ← result
      pure (change a) : Except CompileError β).isOk =
      result.isOk := by
  cases result <;> rfl

mutual

/- A schema has a document exactly if it holds no removal. -/
theorem isOk_toDocument
    (schema : Schema) :
    schema.toDocument.isOk = !schema.holdsRemoval := by
  cases schema with
  | array items =>
      rw [toDocument, isOk_map, isOk_toDocuments items, holdsRemoval]
  | object fields =>
      rw [toDocument, isOk_map, isOk_toRow fields.row, holdsRemoval]
  | _ => rfl

theorem isOk_toDocuments
    (items : List Schema) :
    (toDocuments items).isOk = !itemsHoldRemoval items := by
  cases items with
  | nil => rfl
  | cons item rest =>
      rw [toDocuments, isOk_pair, isOk_toDocument item,
        isOk_toDocuments rest, itemsHoldRemoval, Bool.not_or]

theorem isOk_toRow
    {names : List String}
    (row : OrderedMap.Row Schema names) :
    (toRow row).isOk = !rowHoldsRemoval row := by
  match row with
  | .nil => rfl
  | .cons key value rest hNew =>
      rw [toRow, isOk_pair, isOk_toDocument value, isOk_toRow rest,
        rowHoldsRemoval, Bool.not_or]

end

/- A map holds a removal if one of its values does. -/
theorem holdsRemoval_object
    (fields : Fields) :
    (object fields).holdsRemoval =
      fields.toList.any fun entry => entry.2.holdsRemoval := by
  rcases fields with ⟨names, row⟩
  change rowHoldsRemoval row = row.toPairs.any _
  induction row with
  | nil => rfl
  | cons name value rest hNew ih =>
      rw [rowHoldsRemoval, ih]
      rfl

/- A description holds no removal. -/
theorem holdsRemoval_describe
    (schema : Schema)
    (comments : List Comment) :
    (schema.describe comments).holdsRemoval =
      schema.holdsRemoval := by
  unfold describe
  split
  · rfl
  · cases schema with
    | object fields =>
        simp only [mapFields]
        split
        · rfl
        · rename_i hAbsent
          rw [OrderedMap.contains_iff] at hAbsent
          rw [holdsRemoval_object, holdsRemoval_object,
            OrderedMap.toList_insertFirst hAbsent]
          rfl
    | _ => rfl

end SchemaLang.Schema
