import Mathlib.Data.List.Pairwise
import SchemaLang.Compile.Declared
import SchemaLang.Operation.Builtin
import SchemaLang.Proofs.Compile.Members
import SchemaLang.Proofs.Schema.Reconciling

/-
  Required names that are listed once. Methods that require names, drop
  them or merge schemas list no name twice. A name is listed twice only
  if a list that replaces all names has it twice, or if two properties
  are picked under one new name; then a property is lost as well.

  Main declarations:
    * `Call.Selection.Separates`
    * `Call.Selection.nodup_filterMap_iff`
    * `Fields.length_ofList_picked_iff`
    * `Call.KeepsApart`
    * `Compile.required_once_iff`
-/

namespace SchemaLang

------------------------------------------------------------
-- Names Under Other Names
------------------------------------------------------------

namespace Call.Selection

/- No two of some names are selected under the same name. -/
def Separates
    (selected : Selection)
    (names : List String) : Prop :=
  ∀ name ∈ names, ∀ other ∈ names, ∀ renamed,
    selected.get? name = some renamed →
      selected.get? other = some renamed → name = other

/- Selected names stay distinct exactly if they are kept apart. -/
theorem nodup_filterMap_iff
    (selected : Selection)
    {names : List String}
    (hNodup : names.Nodup) :
    (names.filterMap selected.get?).Nodup ↔
      selected.Separates names := by
  unfold List.Nodup Separates
  rw [List.pairwise_filterMap]
  constructor
  · intro hApart name hName other hOther renamed hFirst hSecond
    by_contra hDiffer
    have hSymm :
        Std.Symm fun a b : String =>
          ∀ x, selected.get? a = some x →
            ∀ y, selected.get? b = some y → x ≠ y :=
      ⟨fun _ _ hApart x hx y hy => (hApart y hy x hx).symm⟩
    exact hApart.forall hName hOther hDiffer _ hFirst _ hSecond rfl
  · intro hSeparates
    refine List.Pairwise.imp_of_mem ?_ hNodup
    rintro name other hName hOther hDiffer renamed hFirst _ hSecond rfl
    exact hDiffer
      (hSeparates name hName other hOther renamed hFirst hSecond)

end Call.Selection

namespace Fields

variable {fields : Fields}

/- A map lists names as required, or does not if there are none. -/
def Lists
    (fields : Fields)
    (names : List String) : Prop :=
  fields.get? "required" = some (.strings names) ∨
    (fields.get? "required" = none ∧ names = [])

theorem lists_setRequired
    (fields : Fields)
    (names : List String) :
    Lists (setRequired fields names) names := by
  refine .inl ?_
  unfold setRequired
  rw [OrderedMap.get?_insert, if_pos rfl]

theorem Lists.setProperties
    {names : List String}
    (hLists : fields.Lists names)
    (properties : Schema) :
    Lists (fields.insert "properties" properties) names := by
  unfold Lists at hLists ⊢
  rw [OrderedMap.get?_insert, if_neg (by decide)]
  exact hLists

/- Names that are changed are listed as before, if there are any. -/
theorem lists_choosing
    (fields : Fields)
    {change : List String → List String}
    (hNil : change [] = [])
    (choose : Fields → Fields) :
    Lists (fields.choosing change choose)
      (change (requiredNames fields)) := by
  have hLists :
      Lists (fields.changeRequired change)
        (change (requiredNames fields)) := by
    unfold changeRequired
    split
    · exact lists_setRequired fields _
    · rename_i hContains
      rw [OrderedMap.contains_iff, ← OrderedMap.get?_eq_none_iff]
        at hContains
      refine .inr ⟨hContains, ?_⟩
      unfold requiredNames
      rw [hContains]
      exact hNil
  unfold choosing
  dsimp only
  split
  · exact hLists
  · exact hLists.setProperties _

theorem lists_pick
    (fields : Fields)
    (selected : Call.Selection) :
    Lists (pick fields selected)
      ((requiredNames fields).filterMap selected.get?) := by
  rw [pick_eq_choosing]
  exact lists_choosing fields List.filterMap_nil _

theorem lists_drop
    (fields : Fields)
    (names : List String) :
    Lists (drop fields names)
      ((requiredNames fields).filter fun name =>
        !names.contains name) := by
  rw [drop_eq_choosing]
  exact lists_choosing fields List.filter_nil _

/- A name that is demanded again is not listed again. -/
theorem nodup_demandAll
    {required : List String}
    (hNodup : required.Nodup)
    (names : List String)
    (wanted : Bool) :
    (names.foldl
      (fun required name => Reconciled.demand required name wanted)
      required).Nodup := by
  induction names generalizing required with
  | nil => exact hNodup
  | cons name rest ih =>
      exact ih (Reconciled.nodup_demand hNodup name wanted)

theorem names_picked
    (properties : Fields)
    (selected : Call.Selection) :
    (picked properties selected).names =
      properties.keys.filterMap selected.get? := by
  rw [← OrderedMap.names_toList]
  unfold picked Pairs.names
  rw [List.map_filterMap, List.filterMap_map]
  congr
  funext entry
  simp [Function.comp_def]

theorem length_picked
    (properties : Fields)
    (selected : Call.Selection) :
    (picked properties selected).length =
      (properties.keys.filter selected.contains).length := by
  rw [← List.length_map Prod.fst, ← Pairs.names, names_picked,
    List.length_filterMap_eq_countP, List.countP_eq_length_filter]
  rfl

theorem properties_pick
    (fields : Fields)
    (selected : Call.Selection) :
    (Reconciled.ofFields (pick fields selected)).properties =
      OrderedMap.ofList
        (picked (Reconciled.ofFields fields).properties selected) := by
  unfold Reconciled.ofFields
  rw [pick_eq_choosing, properties?_choosing]
  cases properties? fields with
  | none => rfl
  | some properties => rfl

/-
  As many properties are picked as are selected, exactly if no two of
  them are selected under the same name.
-/
theorem length_ofList_picked_iff
    (properties : Fields)
    (selected : Call.Selection) :
    (OrderedMap.ofList (picked properties selected)).keys.length =
        (properties.keys.filter selected.contains).length ↔
      selected.Separates properties.keys := by
  rw [← length_picked, OrderedMap.length_ofList_eq_iff, names_picked]
  exact selected.nodup_filterMap_iff properties.nodup_keys

end Fields

------------------------------------------------------------
-- Methods That Write Required Names
------------------------------------------------------------

namespace Method

variable {fields : Fields}
variable {call : Call}
variable {answer : Schema}

def merging : List String :=
  ["merge", "add", "assign", "extend"]

def picking : List String :=
  ["props", "pick"]

def removing : List String :=
  ["remove", "omit"]

def dismissing : List String :=
  ["notRequired", "optional"]

/- The methods that write the required names, with all their names. -/
def writers : List (List String × Method) :=
  [(merging, merge), (picking, pick), (removing, remove),
    (["required"], required), (dismissing, notRequired)]

def requirers : List String :=
  writers.flatMap Prod.fst

/- A method is found under each of its names. -/
theorem get?_of_mem_writers :
    ∀ writer ∈ writers, ∀ name ∈ writer.1,
      builtins.get? name = some writer.2 := by
  simp only [writers, merging, picking, removing, dismissing,
    List.forall_mem_cons, List.not_mem_nil, false_implies, implies_true,
    and_true]
  exact ⟨⟨rfl, rfl, rfl, rfl⟩, ⟨rfl, rfl⟩, ⟨rfl, rfl⟩, rfl, rfl, rfl⟩

theorem exists_writer
    {name : String}
    {method : Method}
    (hName : name ∈ requirers)
    (hGet : builtins.get? name = some method) :
    ∃ writer ∈ writers, name ∈ writer.1 ∧ method = writer.2 := by
  rcases List.mem_flatMap.mp hName with ⟨writer, hWriter, hName⟩
  have hFound := get?_of_mem_writers writer hWriter name hName
  exact ⟨writer, hWriter, hName, Option.some.inj (hGet.symm.trans hFound)⟩

theorem finish_merge
    {sources : List Schema}
    (hType : (Schema.object fields).typeName? = some "object")
    (hFinish : merge.finish (.object fields) call sources = .ok answer) :
    ∃ entries : Fields,
      answer = .object entries ∧
        entries.Lists
          (((Merging.maps sources).foldl Reconciled.take
            (Reconciled.ofFields fields)).required) := by
  rcases exists_of_bind_eq_ok hFinish with ⟨merged, hMerges, hAnswer⟩
  cases hAnswer
  refine ⟨merged, rfl, ?_⟩
  cases hStray : Merging.stray? (some "object") sources with
  | some source =>
      rw [Fields.merge_of_stray (hType ▸ hStray)] at hMerges
      cases hMerges
  | none =>
      rw [Fields.merge_of_none hType hStray] at hMerges
      cases hMerges
      rw [← Merging.object_foldl_take _ ⟨fields, _⟩]
      exact (Fields.lists_setRequired _ _).setProperties _

theorem finish_pick
    (hFinish : pick.finish (.object fields) call () = .ok answer) :
    ∃ selected,
      call.selection = .ok selected ∧
        answer = .object (Fields.pick fields selected) := by
  rcases exists_of_bind_eq_ok hFinish with ⟨_, -, hFinish⟩
  rcases exists_of_bind_eq_ok hFinish with ⟨selected, hSelected, hAnswer⟩
  exact ⟨selected, hSelected, (Except.ok.inj hAnswer).symm⟩

theorem finish_remove
    (hFinish : remove.finish (.object fields) call () = .ok answer) :
    ∃ names, answer = .object (Fields.drop fields names) := by
  rcases exists_of_bind_eq_ok hFinish with ⟨_, -, hFinish⟩
  rcases exists_of_bind_eq_ok hFinish with ⟨names, -, hAnswer⟩
  exact ⟨names, (Except.ok.inj hAnswer).symm⟩

theorem finish_required
    (hFinish : required.finish (.object fields) call () = .ok answer) :
    (∃ names,
      call.requirement = .ok (.list names) ∧
        answer = .object (Fields.setRequired fields names)) ∨
      ∃ names,
        call.requirement = .ok (.names names) ∧
          answer = .object (Fields.demandAll fields names true) := by
  rcases exists_of_bind_eq_ok hFinish with ⟨given, hGiven, hAnswer⟩
  cases given with
  | list names =>
      exact .inl ⟨names, hGiven, (Except.ok.inj hAnswer).symm⟩
  | names names =>
      exact .inr ⟨names, hGiven, (Except.ok.inj hAnswer).symm⟩

theorem finish_notRequired
    (hFinish : notRequired.finish (.object fields) call () = .ok answer) :
    ∃ names, answer = .object (Fields.demandAll fields names false) := by
  rcases exists_of_bind_eq_ok hFinish with ⟨given, -, hFinish⟩
  cases given with
  | list names => exact ⟨names, (Except.ok.inj hFinish).symm⟩
  | names names => exact ⟨names, (Except.ok.inj hFinish).symm⟩

end Method

------------------------------------------------------------
-- Calls
------------------------------------------------------------

/-
  What a call gives does not make names fall together: no two of some
  names are picked under the same name, and a list that replaces all
  names has none twice.
-/
structure Call.KeepsApart
    (call : Call)
    (names : List String) : Prop where
  picked :
    call.name ∈ Method.picking →
      ∀ selected, call.selection = .ok selected →
        selected.Separates names
  listed :
    call.name = "required" →
      ∀ names, call.requirement = .ok (.list names) → names.Nodup

namespace Call

variable {call : Call}
variable {names : List String}

theorem keepsApart_of_not_mem
    (hName : call.name ∉ "required" :: Method.picking) :
    call.KeepsApart names where
  picked := fun hPick => absurd (.tail _ hPick) hName
  listed := fun hList => absurd (hList ▸ .head _) hName

theorem keepsApart_iff_separates
    {selected : Selection}
    (hName : call.name ∈ Method.picking)
    (hSelected : call.selection = .ok selected) :
    call.KeepsApart names ↔ selected.Separates names := by
  constructor
  · intro hApart
    exact hApart.picked hName selected hSelected
  · intro hSeparates
    refine ⟨fun _ other hOther => ?_, fun hList => ?_⟩
    · rw [hSelected] at hOther
      cases hOther
      exact hSeparates
    · rw [hList] at hName
      exact absurd hName (by decide)

theorem keepsApart_iff_requirement
    (hName : call.name = "required") :
    call.KeepsApart names ↔
      ∀ listed, call.requirement = .ok (.list listed) →
        listed.Nodup := by
  constructor
  · intro hApart
    exact hApart.listed hName
  · intro hListed
    refine ⟨fun hPick => ?_, fun _ => hListed⟩
    rw [hName] at hPick
    exact absurd hPick (by decide)

end Call

namespace Compile

variable {compiler : Compiler}
variable {expand : Expand}
variable {registry after : Registry}

/-
  A method that writes the required names of an object lists none of
  them twice, exactly if the call keeps names apart. Picking keeps as
  many properties as are selected, exactly under the same condition on
  the names of all properties.
-/
theorem required_once_iff
    {method : Method}
    {fields : Fields}
    {answer : Schema}
    {site : Call}
    (hName : site.name ∈ Method.requirers)
    (hMethod : Method.builtins.get? site.name = some method)
    (hType : (Schema.object fields).typeName? = some "object")
    (hOnce : (Fields.requiredNames fields).Nodup)
    (hRun :
      outcome (run compiler expand method (.object fields) site) registry =
        (.ok answer, after)) :
    ∃ (entries : Fields) (names : List String),
      answer = .object entries ∧
        entries.Lists names ∧
        (names.Nodup ↔ site.KeepsApart (Fields.requiredNames fields)) ∧
        (site.name ∈ Method.picking →
          ∃ selected,
            site.selection = .ok selected ∧
              ∀ properties,
                (Reconciled.ofFields fields).properties = properties →
                  ((Reconciled.ofFields entries).properties.keys.length =
                      (properties.keys.filter
                        selected.contains).length ↔
                    selected.Separates properties.keys)) := by
  rcases finish_of_run hRun with ⟨-, result, hFinish⟩
  have hOthers :
      ∀ name ∈ Method.merging ++ Method.removing ++ Method.dismissing,
        name ∉ "required" :: Method.picking := by decide
  -- The name tells the method, and the method what it writes.
  rcases Method.exists_writer hName hMethod with
    ⟨writer, hWriter, hName, rfl⟩
  simp only [Method.writers, List.mem_cons, List.not_mem_nil,
    or_false] at hWriter
  rcases hWriter with rfl | rfl | rfl | rfl | rfl
  · rcases Method.finish_merge hType hFinish with ⟨entries, rfl, hLists⟩
    have hOther := hOthers site.name (by simp [hName])
    exact ⟨entries, _, rfl, hLists,
      iff_of_true (Reconciled.nodup_foldl_take hOnce _)
        (Call.keepsApart_of_not_mem hOther),
      fun hPick => absurd (.tail _ hPick) hOther⟩
  · rcases Method.finish_pick hFinish with ⟨selected, hSelected, rfl⟩
    refine ⟨_, _, rfl, Fields.lists_pick fields selected, ?_,
      fun _ => ⟨selected, hSelected, ?_⟩⟩
    · rw [selected.nodup_filterMap_iff hOnce,
        Call.keepsApart_iff_separates hName hSelected]
    · rintro _ rfl
      rw [Fields.properties_pick]
      exact Fields.length_ofList_picked_iff _ selected
  · rcases Method.finish_remove hFinish with ⟨names, rfl⟩
    have hOther := hOthers site.name (by simp [hName])
    exact ⟨_, _, rfl, Fields.lists_drop fields names,
      iff_of_true (hOnce.filter _) (Call.keepsApart_of_not_mem hOther),
      fun hPick => absurd (.tail _ hPick) hOther⟩
  · have hName : site.name = "required" := List.mem_singleton.mp hName
    have hPick : site.name ∉ Method.picking := by
      rw [hName]
      decide
    rw [Call.keepsApart_iff_requirement hName]
    rcases Method.finish_required hFinish with
      ⟨names, hGiven, rfl⟩ | ⟨names, hGiven, rfl⟩
    · refine ⟨_, names, rfl, Fields.lists_setRequired fields names, ?_,
        fun hPicks => absurd hPicks hPick⟩
      simp [hGiven]
    · refine ⟨_, _, rfl, Fields.lists_setRequired fields _, ?_,
        fun hPicks => absurd hPicks hPick⟩
      simp [hGiven, Fields.nodup_demandAll hOnce names true]
  · rcases Method.finish_notRequired hFinish with ⟨names, rfl⟩
    have hOther := hOthers site.name (by simp [hName])
    exact ⟨_, _, rfl, Fields.lists_setRequired fields _,
      iff_of_true (Fields.nodup_demandAll hOnce names false)
        (Call.keepsApart_of_not_mem hOther),
      fun hPick => absurd (.tail _ hPick) hOther⟩

end Compile

------------------------------------------------------------
-- Names That Fall Together
------------------------------------------------------------

/- An object that requires both of its properties. -/
def Fields.both : Fields :=
  ofProperties ["a", "b"] (.of [("a", .bool true), ("b", .bool false)])

namespace Call

/- Pick `a` as `c`, and `b` under some name. -/
def pickBoth
    (renamed : String) : Call :=
  ⟨"pick",
    [⟨.object
      [.property (.identifier "a") false ⟨.string "c", {}⟩ {} {},
        .property (.identifier "b") false ⟨.string renamed, {}⟩ {} {}],
      {}⟩], {}⟩

/- Require the names of a list that has one name twice. -/
def requireTwice : Call :=
  ⟨"required",
    [⟨.array [⟨.string "a", {}⟩, ⟨.string "a", {}⟩], {}⟩], {}⟩

end Call

namespace Compile

/- Run a standard method on the object that requires `a` and `b`. -/
def runBoth
    (method : Method)
    (site : Call) : Except CompileError Schema × Registry :=
  outcome
    (run { version := .draft2020 }
      (expandWithin { version := .draft2020 } []) method
      (.object Fields.both) site)
    Registry.initial

theorem runBoth_pick
    (renamed : String) :
    runBoth Method.pick (Call.pickBoth renamed) =
      (.ok (.object (Fields.pick Fields.both
        (.of [("a", "c"), ("b", renamed)]))), Registry.initial) :=
  yields_run rfl (yields_evaluate_nothing _) rfl

theorem runBoth_required :
    runBoth Method.required Call.requireTwice =
      (.ok (.object (Fields.setRequired Fields.both ["a", "a"])),
        Registry.initial) :=
  yields_run rfl (yields_evaluate_nothing _) rfl

/- Two names under two names stay apart, and both properties are kept. -/
theorem required_once_iff_pickBoth :
    (Fields.requiredNames Fields.both).Nodup ∧
      ∃ (entries : Fields) (names : List String),
        runBoth Method.pick (Call.pickBoth "d") =
          (.ok (.object entries), Registry.initial) ∧
        entries.Lists names ∧ names.Nodup ∧
        (Reconciled.ofFields entries).properties.keys.length = 2 := by
  have hName : (Call.pickBoth "d").name ∈ Method.requirers := by decide
  have hOnce : (Fields.requiredNames Fields.both).Nodup := by decide
  rcases required_once_iff hName rfl rfl hOnce (runBoth_pick "d") with
    ⟨entries, names, hAnswer, hLists, hNodup, hCount⟩
  rcases hCount (by decide) with ⟨selected, hSelected, hLength⟩
  have hApart :
      (Call.pickBoth "d").KeepsApart (Fields.requiredNames Fields.both) ↔
        selected.Separates ["a", "b"] :=
    Call.keepsApart_iff_separates (by decide) hSelected
  cases hSelected
  have hSeparates :
      Call.Selection.Separates (.of [("a", "c"), ("b", "d")])
        ["a", "b"] := by
    unfold Call.Selection.Separates
    decide
  refine ⟨hOnce, entries, names, ?_, hLists,
    hNodup.mpr (hApart.mpr hSeparates), ?_⟩
  · rw [← hAnswer]
    exact runBoth_pick "d"
  · exact (hLength _ rfl).mpr hSeparates

/- A list may have a name twice, and two names may become one. -/
theorem required_repeats :
    (Fields.requiredNames Fields.both).Nodup ∧
      (∃ entries,
        runBoth Method.required Call.requireTwice =
          (.ok (.object entries), Registry.initial) ∧
        Fields.requiredNames entries = ["a", "a"]) ∧
      ∃ entries,
        runBoth Method.pick (Call.pickBoth "c") =
          (.ok (.object entries), Registry.initial) ∧
        Fields.requiredNames entries = ["c", "c"] ∧
        (Reconciled.ofFields entries).properties.keys.length = 1 :=
  ⟨by decide, ⟨_, runBoth_required, by decide⟩,
    ⟨_, runBoth_pick "c", by decide, by decide⟩⟩

end Compile

end SchemaLang
