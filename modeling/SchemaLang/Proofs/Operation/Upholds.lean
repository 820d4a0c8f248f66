import SchemaLang.Operation.Builtin
import SchemaLang.Proofs.Schema.Standard

/-
  Methods that keep to a standard. A method that takes values as they
  are written does so only if removals may be left.

  Main declarations:
    * `Demand.isWritten`
    * `Standard.Upholds`
    * `Standard.upholds_shared`
    * `Standard.upholds_builtins`
-/

namespace SchemaLang

/- Whether a reading takes its argument as it is written. -/
def Reading.isWritten : Reading → Bool
  | literal => true
  | literalObject => true
  | _ => false

/- Whether arguments are taken as they are written. -/
def Demand.isWritten : Demand → Bool
  | value reading => reading.isWritten
  | entries => true
  | _ => false

namespace Standard

/- What arguments have become is sound. -/
def Given
    (standard : Standard) :
    (demand : Demand) → demand.Result → Prop
  | .nothing => fun _ => True
  | .value _ => standard.Sound
  | .schemas => fun schemas => ∀ schema ∈ schemas, standard.Sound schema
  | .entries => fun entries => ∀ entry ∈ entries, standard.Sound entry.2
  | .definitions => standard.Sound

/-
  A method gives no names by itself. Called by its own name, it takes
  schemas that are up to a standard to such schemas again.
-/
structure Upholds
    (standard : Standard)
    (name : String)
    (method : Method) : Prop where
  silent : method.demand ≠ .definitions
  written : method.demand.isWritten = true → standard.removals = true
  finish :
    ∀ {schema call result answer},
      call.name = name →
        standard.Met schema →
          standard.Given method.demand result →
            method.finish schema call result = .ok answer →
              standard.Met answer

variable {standard : Standard}
variable {name : String}

------------------------------------------------------------
-- Methods That Set A Key
------------------------------------------------------------

theorem upholds_setting
    {receiver : Option Schema.Kind}
    {key : Call → String}
    {value : Call → Except CompileError Schema}
    (hKey : ∀ call, call.name = name → standard.leading (key call) = false)
    (hValue : ∀ call schema, value call = .ok schema → standard.Sound schema) :
    standard.Upholds name (Method.setting receiver key value) where
  silent := nofun
  written := nofun
  finish := by
    intro schema call result answer hName hMet _ hFinish
    rcases exists_of_bind_eq_ok hFinish with ⟨found, hFound, hAnswer⟩
    cases hAnswer
    exact hMet.setKey (hKey call hName) (hValue call found hFound)

theorem upholds_number
    {receiver : Schema.Kind}
    {key : Call → String}
    (hKey :
      ∀ call, call.name = name → standard.leading (key call) = false) :
    standard.Upholds name (Method.number receiver key) := by
  apply upholds_setting hKey
  intro call schema hValue
  rcases exists_of_bind_eq_ok hValue with ⟨value, -, hSchema⟩
  cases hSchema
  exact sound_ofBinary64 value

theorem upholds_text
    {receiver : Option Schema.Kind}
    {key : String}
    (hKey : Schema.isNaming key = false) :
    standard.Upholds name (Method.text receiver key) := by
  apply upholds_setting (fun _ _ => leading_of_not_naming hKey)
  intro call schema hValue
  rcases exists_of_bind_eq_ok hValue with ⟨value, -, hSchema⟩
  cases hSchema
  trivial

theorem upholds_flag
    {receiver : Schema.Kind}
    {key : String}
    (hKey : Schema.isNaming key = false) :
    standard.Upholds name (Method.flag receiver key) := by
  apply upholds_setting (fun _ _ => leading_of_not_naming hKey)
  intro call schema hValue
  rcases exists_of_bind_eq_ok hValue with ⟨value, -, hSchema⟩
  cases hSchema
  trivial

theorem upholds_pattern :
    standard.Upholds name Method.pattern := by
  apply upholds_setting (fun _ _ => leading_of_not_naming rfl)
  intro call schema hValue
  rcases exists_of_bind_eq_ok hValue with ⟨value, -, hSchema⟩
  cases hSchema
  trivial

theorem upholds_schema
    {receiver : Option Schema.Kind}
    {key : String}
    {reading : Reading}
    (hKey : Schema.isNaming key = false)
    (hWritten :
      (Method.schema receiver key reading).demand.isWritten = true →
        standard.removals = true) :
    standard.Upholds name (Method.schema receiver key reading) where
  silent := nofun
  written := hWritten
  finish := by
    intro schema call result answer _ hMet hGiven hFinish
    cases hFinish
    exact hMet.setKey (leading_of_not_naming hKey) hGiven

------------------------------------------------------------
-- Methods On Properties
------------------------------------------------------------

theorem upholds_pick :
    standard.Upholds name Method.pick where
  silent := nofun
  written := nofun
  finish := by
    intro schema call result answer _ hMet _ hFinish
    rcases exists_of_bind_eq_ok hFinish with ⟨_, -, hFinish⟩
    rcases exists_of_bind_eq_ok hFinish with ⟨selected, -, hAnswer⟩
    cases hAnswer
    exact hMet.mapFields fun _ hFields => hFields.pick selected

theorem upholds_remove :
    standard.Upholds name Method.remove where
  silent := nofun
  written := nofun
  finish := by
    intro schema call result answer _ hMet _ hFinish
    rcases exists_of_bind_eq_ok hFinish with ⟨_, -, hFinish⟩
    rcases exists_of_bind_eq_ok hFinish with ⟨names, -, hAnswer⟩
    cases hAnswer
    exact hMet.mapFields fun _ hFields => hFields.drop names

theorem upholds_required :
    standard.Upholds name Method.required where
  silent := nofun
  written := nofun
  finish := by
    intro schema call result answer _ hMet _ hFinish
    rcases exists_of_bind_eq_ok hFinish with ⟨requirement, -, hAnswer⟩
    cases requirement with
    | list names =>
        cases hAnswer
        exact hMet.setKey (leading_of_not_naming rfl) (sound_strings names)
    | names names =>
        cases hAnswer
        exact hMet.mapFields fun _ hFields => hFields.setRequired _

theorem upholds_notRequired :
    standard.Upholds name Method.notRequired where
  silent := nofun
  written := nofun
  finish := by
    intro schema call result answer _ hMet _ hFinish
    rcases exists_of_bind_eq_ok hFinish with ⟨requirement, -, hAnswer⟩
    cases requirement with
    | list names =>
        cases hAnswer
        exact hMet.mapFields fun _ hFields => hFields.setRequired _
    | names names =>
        cases hAnswer
        exact hMet.mapFields fun _ hFields => hFields.setRequired _

/- Methods that are directives, too, keep to a standard. -/
theorem upholds_shared :
    ∀ entry ∈ Method.shared.toList,
      (entry.2.demand.isWritten = true → standard.removals = true) →
        standard.Upholds entry.1 entry.2 := by
  have hNumber :
      ∀ {name : String} (kind : Schema.Kind),
        Schema.isNaming name = false →
          standard.Upholds name (Method.number kind Method.ownName) := by
    intro name kind hName
    apply upholds_number
    intro call hCall
    subst hCall
    exact leading_of_not_naming hName
  unfold Method.shared
  rw [OrderedMap.toList_of]
  simp only [List.forall_mem_cons, List.not_mem_nil, false_implies,
    implies_true, and_true]
  exact ⟨upholds_schema rfl, upholds_schema rfl, upholds_schema rfl,
    upholds_schema rfl, fun _ => hNumber _ rfl, fun _ => hNumber _ rfl,
    upholds_schema rfl, upholds_schema rfl, fun _ => upholds_required,
    fun _ => upholds_flag rfl, fun _ => upholds_text rfl,
    fun _ => upholds_text rfl⟩

------------------------------------------------------------
-- Methods On Whole Schemas
------------------------------------------------------------

theorem upholds_merge
    (hDescriptions : standard.descriptions = false) :
    standard.Upholds name Method.merge where
  silent := nofun
  written := nofun
  finish := by
    intro schema call result answer _ hMet hGiven hFinish
    cases schema with
    | object fields =>
        rcases exists_of_bind_eq_ok hFinish with ⟨merged, hMerges, hAnswer⟩
        cases hAnswer
        have hFields := met_object.mp hMet
        exact met_object.mpr ⟨hFields.sound.merge hGiven hMerges,
          hFields.leads.merge hDescriptions hMerges⟩
    | _ => cases hFinish

theorem Sound.get?
    {schema value : Schema}
    {key : String}
    (hSound : standard.Sound schema)
    (hGet : schema.get? key = some value) :
    standard.Sound value := by
  rcases Option.bind_eq_some_iff.mp hGet with ⟨fields, hMap, hFound⟩
  cases schema with
  | object fields =>
      cases hMap
      exact (sound_object.mp hSound).get? hFound
  | _ => cases hMap

theorem Sound.option
    {schema value : Schema}
    {key : String}
    {call : Call}
    (hSound : standard.Sound schema)
    (hOption : Method.option schema key call = .ok value) :
    standard.Sound value := by
  unfold Method.option at hOption
  split at hOption
  · rename_i found hGet
    cases hOption
    exact hSound.get? hGet
  · cases hOption

theorem Sound.property
    {schema value : Schema}
    {key : String}
    {call : Call}
    (hSound : standard.Sound schema)
    (hProperty : Method.property schema key call = .ok value) :
    standard.Sound value := by
  unfold Method.property at hProperty
  split at hProperty
  · cases hProperty
  · rename_i properties hFound
    split at hProperty
    · rename_i found hGet
      cases hProperty
      rcases Option.bind_eq_some_iff.mp hFound with
        ⟨fields, hMap, hProperties⟩
      cases schema with
      | object fields =>
          cases hMap
          exact ((sound_object.mp hSound).properties? hProperties).get? hGet
      | _ => cases hMap
    · cases hProperty

theorem Sound.branches?
    {schema : Schema}
    {key : String}
    {branches : List Schema}
    (hSound : standard.Sound schema)
    (hBranches : Method.branches? schema = some (key, branches)) :
    ∀ branch ∈ branches, standard.Sound branch := by
  unfold Method.branches? at hBranches
  split at hBranches
  · rename_i hGet
    cases hBranches
    exact sound_array.mp (hSound.get? hGet)
  · rename_i hGet hOther
    cases hBranches
    exact sound_array.mp (hSound.get? hGet)
  · cases hBranches

/- Parts of a schema are sound, and so suffice if nothing is to lead. -/
section Lenient

variable (hTitles : standard.titles = false)
variable (hDescriptions : standard.descriptions = false)

include hTitles hDescriptions

theorem upholds_get :
    standard.Upholds name Method.get where
  silent := nofun
  written := nofun
  finish := by
    intro schema call result answer _ hMet _ hFinish
    rcases exists_of_bind_eq_ok hFinish with ⟨key, -, hOption⟩
    exact (hMet.sound.option hOption).met hTitles hDescriptions

theorem upholds_set
    (hRemovals : standard.removals = true) :
    standard.Upholds name Method.set where
  silent := nofun
  written := fun _ => hRemovals
  finish := by
    intro schema call result answer _ hMet hGiven hFinish
    cases hFinish
    exact hMet.setKeys
      (fun entry _ => leading_of_lenient hTitles hDescriptions entry.1)
      hGiven

theorem upholds_prop :
    standard.Upholds name Method.prop where
  silent := nofun
  written := nofun
  finish := by
    intro schema call result answer _ hMet _ hFinish
    rcases exists_of_bind_eq_ok hFinish with ⟨key, -, hProperty⟩
    exact (hMet.sound.property hProperty).met hTitles hDescriptions

theorem upholds_propItems :
    standard.Upholds name Method.propItems where
  silent := nofun
  written := nofun
  finish := by
    intro schema call result answer _ hMet _ hFinish
    rcases exists_of_bind_eq_ok hFinish with ⟨key, -, hFinish⟩
    rcases exists_of_bind_eq_ok hFinish with ⟨value, hProperty, hOption⟩
    have hValue := hMet.sound.property hProperty
    exact (hValue.option hOption).met hTitles hDescriptions

theorem upholds_notNull :
    standard.Upholds name Method.notNull where
  silent := nofun
  written := nofun
  finish := by
    intro schema call result answer _ hMet _ hFinish
    dsimp only [Method.notNull] at hFinish
    split at hFinish
    · cases hFinish
    · rename_i key branches hBranches
      have hSound := hMet.sound.branches? hBranches
      have hKept :
          ∀ branch ∈ branches.filter fun branch =>
              branch.typeName? != some "null",
            standard.Sound branch :=
        fun branch hBranch => hSound branch (List.mem_filter.mp hBranch).1
      split at hFinish
      · rename_i hOne
        cases hFinish
        rw [hOne] at hKept
        exact (hKept answer (List.mem_singleton_self answer)).met hTitles
          hDescriptions
      · cases hFinish
        refine hMet.mapFields fun fields hFields => ?_
        exact hFields.insert
          (leading_of_lenient hTitles hDescriptions key)
          (sound_array.mpr hKept)

/- All methods keep to a standard that asks nothing of names. -/
theorem upholds_builtins :
    ∀ entry ∈ Method.builtins.toList,
      (entry.2.demand.isWritten = true → standard.removals = true) →
        standard.Upholds entry.1 entry.2 := by
  have hNumber :
      ∀ (name : String) (kind : Schema.Kind) (key : Call → String),
        standard.Upholds name (Method.number kind key) :=
    fun name kind key =>
      upholds_number fun _ _ =>
        leading_of_lenient hTitles hDescriptions _
  unfold Method.builtins
  rw [OrderedMap.toList_of, List.forall_mem_append]
  refine ⟨?_, upholds_shared⟩
  simp only [List.forall_mem_cons, List.not_mem_nil, false_implies,
    implies_true, and_true]
  exact ⟨fun _ => upholds_merge hDescriptions,
    fun _ => upholds_merge hDescriptions,
    fun _ => upholds_merge hDescriptions,
    fun _ => upholds_merge hDescriptions,
    fun _ => upholds_get hTitles hDescriptions,
    fun hWritten => upholds_set hTitles hDescriptions (hWritten rfl),
    upholds_schema rfl, fun _ => hNumber _ _ _, fun _ => hNumber _ _ _,
    fun _ => upholds_pattern, fun _ => upholds_text rfl,
    fun _ => hNumber _ _ _, fun _ => hNumber _ _ _,
    fun _ => hNumber _ _ _, fun _ => hNumber _ _ _,
    fun _ => hNumber _ _ _, upholds_schema rfl, fun _ => hNumber _ _ _,
    fun _ => hNumber _ _ _, fun _ => upholds_flag rfl,
    upholds_schema rfl, upholds_schema rfl, fun _ => hNumber _ _ _,
    fun _ => hNumber _ _ _, upholds_schema rfl,
    fun _ => upholds_prop hTitles hDescriptions, fun _ => upholds_pick,
    fun _ => upholds_propItems hTitles hDescriptions,
    fun _ => upholds_pick, fun _ => upholds_remove,
    fun _ => upholds_remove, fun _ => upholds_notRequired,
    fun _ => upholds_notRequired,
    fun _ => upholds_notNull hTitles hDescriptions⟩

end Lenient

end Standard

end SchemaLang
