import SchemaLang.Operation.Builtin
import SchemaLang.Proofs.Error
import SchemaLang.Proofs.OrderedMap

/-
  What the directives of object literals do: each of them sets one key,
  which is neither a name, nor the type, nor the properties.

  Main declarations:
    * `Method.SetsKey`
    * `Method.setsKey_shared`
-/

namespace SchemaLang

namespace Method

/- The keys that no directive sets. -/
def fixedKeys : List String :=
  ["type", "properties", "title", "description"]

/-
  Called by its own name, a method sets one key. Only the method of
  this name sets the required names.
-/
def SetsKey
    (name : String)
    (method : Method) : Prop :=
  ∀ {schema call result answer},
    call.name = name →
      method.finish schema call result = .ok answer →
        ∃ key value, key ∉ fixedKeys ∧ (key = "required" → name = "required") ∧
          answer = schema.setKey key value

variable {name : String}

theorem setsKey_setting
    {receiver : Option Schema.Kind}
    {key : Call → String}
    {value : Call → Except CompileError Schema}
    (hKey :
      ∀ call, call.name = name →
        key call ∉ fixedKeys ∧ key call ≠ "required") :
    SetsKey name (setting receiver key value) := by
  intro schema call result answer hName hFinish
  rcases exists_of_bind_eq_ok hFinish with ⟨found, -, hAnswer⟩
  cases hAnswer
  rcases hKey call hName with ⟨hFixed, hRequired⟩
  exact ⟨key call, found, hFixed, fun hSame => absurd hSame hRequired, rfl⟩

theorem setsKey_schema
    {receiver : Option Schema.Kind}
    {key : String}
    {reading : Reading}
    (hKey : key ∉ fixedKeys ∧ key ≠ "required") :
    SetsKey name (schema receiver key reading) := by
  intro schema call result answer _ hFinish
  cases hFinish
  exact ⟨key, result, hKey.1, fun hSame => absurd hSame hKey.2, rfl⟩

/- Required names are set, if they are given one by one as well. -/
theorem setsKey_required :
    SetsKey "required" required := by
  intro schema call result answer _ hFinish
  rcases exists_of_bind_eq_ok hFinish with ⟨requirement, -, hAnswer⟩
  cases requirement with
  | list names =>
      cases hAnswer
      exact ⟨"required", .strings names, by decide, fun _ => rfl, rfl⟩
  | names names =>
      cases hAnswer
      cases schema with
      | object fields =>
          let demanded :=
            names.foldl
              (fun required name => Reconciled.demand required name true)
              (Fields.requiredNames fields)
          exact ⟨"required", .strings demanded, by decide, fun _ => rfl,
            rfl⟩
      | _ => exact ⟨"required", .null, by decide, fun _ => rfl, rfl⟩

theorem setsKey_shared :
    ∀ entry ∈ shared.toList, SetsKey entry.1 entry.2 := by
  have hNumber :
      ∀ {name : String} (kind : Schema.Kind),
        name ∉ fixedKeys ∧ name ≠ "required" →
          SetsKey name (number kind ownName) := by
    intro name kind hName
    apply setsKey_setting
    intro call hCall
    subst hCall
    exact hName
  unfold shared
  rw [OrderedMap.toList_of]
  simp only [List.forall_mem_cons, List.not_mem_nil, false_implies,
    implies_true, and_true]
  exact ⟨setsKey_schema (by decide), setsKey_schema (by decide),
    setsKey_schema (by decide), setsKey_schema (by decide),
    hNumber _ (by decide), hNumber _ (by decide),
    setsKey_schema (by decide), setsKey_schema (by decide),
    setsKey_required, setsKey_setting fun _ _ => by decide,
    setsKey_setting fun _ _ => by decide,
    setsKey_setting fun _ _ => by decide⟩

end Method

end SchemaLang
