import SchemaLang.Proofs.Compile.Upheld
import SchemaLang.Proofs.Operation.Directives
import SchemaLang.Proofs.Schema.Standard

/-
  Where title and description stand in object literals. The members of
  a literal only add entries behind its type. No title is among them,
  and a description exactly if a schema with one is spread; so this is
  when a description does not come first.

  Main declarations:
    * `Schema.NamesLead`
    * `Fields.Brings` and `Fields.Brings.merge`
    * `Compile.SpreadBy` and `Compile.Spreads`
    * `Compile.brings_memberStep` and `Compile.brings_memberList`
    * `Compile.namesLead_object_iff`
-/

namespace SchemaLang

------------------------------------------------------------
-- Names In Front
------------------------------------------------------------

namespace Schema

/- Only names stand in front of a key of a map. -/
def LeadsWith
    (name : String)
    (schema : Schema) : Prop :=
  (OrderedMap.keys (schema.fields?.getD .empty)).Pairwise fun before key =>
    key = name → isNaming before = true

/- Title and description come before all other keys. -/
def NamesLead
    (schema : Schema) : Prop :=
  schema.LeadsWith "title" ∧ schema.LeadsWith "description"

instance
    (name : String)
    (schema : Schema) : Decidable (schema.LeadsWith name) :=
  inferInstanceAs (Decidable (List.Pairwise _ _))

instance
    (schema : Schema) : Decidable schema.NamesLead :=
  inferInstanceAs (Decidable (_ ∧ _))

/-
  An object that starts with its type and has no title is described in
  front, unless it has a description already.
-/
theorem namesLead_describe_iff
    {fields : Fields}
    (hType : ["type"] <+: fields.keys)
    (hTitle : "title" ∉ fields.keys)
    (comments : List Comment) :
    ((Schema.object fields).describe comments).NamesLead ↔
      "description" ∉ fields.keys := by
  rcases hType with ⟨rest, hKeys⟩
  constructor
  · intro hLead hDescribed
    have hSame :
        (Schema.object fields).describe comments = .object fields := by
      unfold describe mapFields
      split
      · rfl
      · dsimp only
        rw [if_pos (OrderedMap.contains_iff.mpr hDescribed)]
    rw [hSame] at hLead
    have hPairs := hLead.2
    unfold LeadsWith at hPairs
    have hRest : "description" ∈ rest := by
      rw [← hKeys] at hDescribed
      simpa using hDescribed
    rw [fields?, Option.getD_some, ← hKeys, List.singleton_append,
      List.pairwise_cons] at hPairs
    cases hPairs.1 "description" hRest rfl
  · intro hPlain
    have hKey :
        ∀ name, name ∉ fields.keys →
          fields.keys.Pairwise fun before key =>
            key = name → isNaming before = true := by
      intro name hName
      refine List.pairwise_iff_forall_sublist.mpr fun hSublist hSame => ?_
      refine absurd (hSublist.subset ?_) hName
      simp [hSame]
    unfold describe mapFields
    split
    · exact ⟨hKey _ hTitle, hKey _ hPlain⟩
    · dsimp only
      split
      · exact ⟨hKey _ hTitle, hKey _ hPlain⟩
      · have hFirst :
            ∀ name, name ∉ fields.keys →
              LeadsWith name
                (.object (fields.insertFirst "description"
                  (.string (descriptionText comments)))) := by
          intro name hName
          unfold LeadsWith
          rw [fields?, Option.getD_some, ← OrderedMap.names_toList,
            OrderedMap.toList_insertFirst hPlain, Pairs.names_cons,
            OrderedMap.names_toList]
          exact .cons (fun _ _ _ => rfl) (hKey name hName)
        exact ⟨hFirst _ hTitle, hFirst _ hPlain⟩

end Schema

------------------------------------------------------------
-- Entries That Are Added
------------------------------------------------------------

/- The description of a source is taken over. -/
theorem Merging.description_mem_taken_iff
    {isObject : Bool}
    {source : Schema} :
    "description" ∈ (taken isObject [source]).names ↔
      source.get? "description" ≠ none := by
  have hKept :
      ∀ fields : Fields,
        "description" ∈
            Pairs.names (fields.toList.filter fun entry =>
              !skips isObject entry.1) ↔
          "description" ∈ fields.keys := by
    intro fields
    rw [← OrderedMap.toList_filter, OrderedMap.names_toList,
      fields.keys_filter fun key => !skips isObject key,
      List.mem_filter]
    simp [skips]
  unfold taken Schema.get?
  rw [List.flatMap_singleton]
  cases source.fields? with
  | none => simp
  | some fields =>
      rw [Option.getD_some, hKept, Option.bind_some, ne_eq,
        OrderedMap.get?_eq_none_iff, not_not]

namespace Fields

/-
  What an object literal is changed to: the type stays in front, no
  title is added, and a description is exactly if one is brought.
-/
structure Brings
    (brought : Prop)
    (fields after : Fields) : Prop where
  type : ["type"] <+: fields.keys → ["type"] <+: after.keys
  title : "title" ∈ after.keys → "title" ∈ fields.keys
  description :
    "description" ∈ after.keys ↔
      "description" ∈ fields.keys ∨ brought

namespace Brings

variable {brought others : Prop}
variable {fields middle after : Fields}

theorem refl
    (fields : Fields) :
    Brings False fields fields where
  type := id
  title := id
  description := by rw [or_false]

theorem trans
    (hFirst : Brings brought fields middle)
    (hSecond : Brings others middle after) :
    Brings (brought ∨ others) fields after where
  type := hSecond.type ∘ hFirst.type
  title := hFirst.title ∘ hSecond.title
  description := by
    rw [hSecond.description, hFirst.description, or_assoc]

theorem congr
    (hBrings : Brings brought fields after)
    (hSame : brought ↔ others) :
    Brings others fields after := by
  rwa [← propext hSame]

/- Two changes that bring nothing bring nothing. -/
theorem silent
    (hFirst : Brings False fields middle)
    (hSecond : Brings False middle after) :
    Brings False fields after :=
  (hFirst.trans hSecond).congr (or_self_iff)

/- Entries bring a description if there is one among them. -/
theorem insertAll
    (fields : Fields)
    {entries : List (String × Schema)}
    (hTitle : "title" ∉ entries.map Prod.fst) :
    Brings ("description" ∈ entries.map Prod.fst) fields
      (fields.insertAll entries) where
  type := fun hType =>
    hType.trans (OrderedMap.keys_prefix_insertAll fields entries)
  title := fun hKey =>
    (OrderedMap.mem_keys_insertAll.mp hKey).resolve_right hTitle
  description := OrderedMap.mem_keys_insertAll

theorem insert
    (fields : Fields)
    (key : String)
    (value : Schema)
    (hKey : Schema.isNaming key = false) :
    Brings False fields (fields.insert key value) := by
  simp only [Schema.isNaming, Bool.or_eq_false_iff, beq_eq_false_iff_ne]
    at hKey
  have hTitle : "title" ∉ [(key, value)].map Prod.fst := by
    simpa using hKey.1.symm
  refine (insertAll fields hTitle).congr ?_
  simpa using hKey.2.symm

theorem erase
    (fields : Fields)
    {key : String}
    (hKey : key ∉ Method.fixedKeys) :
    Brings False fields (fields.erase key) := by
  simp only [Method.fixedKeys, List.mem_cons, List.not_mem_nil, or_false,
    not_or] at hKey
  rcases hKey with ⟨hType, -, hTitle, hDescription⟩
  constructor
  · rintro ⟨rest, hKeys⟩
    rw [OrderedMap.keys_erase, ← hKeys, List.filter_append]
    exact ⟨rest.filter (· != key), by simp [Ne.symm hType]⟩
  · rw [OrderedMap.keys_erase]
    exact fun hMember => (List.mem_filter.mp hMember).1
  · rw [OrderedMap.keys_erase, List.mem_filter, or_false]
    exact and_iff_left (by simpa using Ne.symm hDescription)

/- A directive sets a key, or takes it away. -/
theorem applyEntry
    (fields : Fields)
    {key : String}
    (value : Schema)
    (hKey : key ∉ Method.fixedKeys) :
    Brings False fields (Fields.applyEntry fields key value) := by
  unfold Fields.applyEntry
  split
  · exact erase fields hKey
  · apply insert
    simp only [Method.fixedKeys, List.mem_cons, List.not_mem_nil, or_false,
      not_or] at hKey
    simp [Schema.isNaming, hKey]

theorem toggleRequired
    (fields : Fields)
    (name : String)
    (wanted : Bool) :
    Brings False fields (Fields.toggleRequired fields name wanted) := by
  unfold Fields.toggleRequired
  dsimp only
  split
  · exact insert fields _ _ rfl
  · split
    · exact insert fields _ _ rfl
    · exact refl fields

theorem removeProperty
    (fields : Fields)
    (name : String) :
    Brings False fields (Fields.removeProperty fields name) := by
  unfold Fields.removeProperty
  split
  · exact insert fields _ _ rfl
  · exact refl fields

theorem describeProperty
    (fields : Fields)
    (name : String)
    (comments : List Comment) :
    Brings False fields (Fields.describeProperty fields name comments) := by
  unfold Fields.describeProperty
  split
  · exact refl fields
  · split
    · exact refl fields
    · exact insert fields _ _ rfl

theorem addPatterns
    (fields patterns : Fields) :
    Brings False fields (Fields.addPatterns fields patterns) := by
  unfold Fields.addPatterns
  split
  · exact insert fields _ _ rfl
  · exact insert fields _ _ rfl

/- A source brings its description. -/
theorem merge
    {source : Schema}
    {span : Span}
    (hMerges : Fields.merge fields [source] span = .ok after) :
    Brings (source.get? "description" ≠ none) fields after := by
  unfold Fields.merge at hMerges
  rcases exists_of_bind_eq_ok hMerges with ⟨state, hState, hResult⟩
  cases hResult
  have hTaken :
      Brings (source.get? "description" ≠ none) fields state.fields := by
    rw [Merging.fields_takeAll hState]
    refine (insertAll fields ?_).congr Merging.description_mem_taken_iff
    intro hTitle
    rcases List.mem_map.mp hTitle with ⟨entry, hEntry, hKey⟩
    have hOther := Merging.ne_title_of_mem_taken hEntry
    rw [hKey] at hOther
    cases hOther
  unfold Merging.result
  split
  · have hRequired :
        Brings False state.fields
          (Fields.setRequired state.fields state.object.required) :=
      insert _ _ _ rfl
    have hBoth := hRequired.silent
      (insert _ "properties" (.object state.object.properties) rfl)
    exact (hTaken.trans hBoth).congr (iff_of_eq (or_false _))
  · exact hTaken

end Brings

end Fields

------------------------------------------------------------
-- Members
------------------------------------------------------------

/- Whether a member spreads an object that is taken as written. -/
def Member.spreadsLiteral : Member → Bool
  | spread
      ⟨.spread ⟨.unary .not ⟨.unary .not ⟨.object _, _⟩, _⟩, _⟩, _⟩ => true
  | _ => false

namespace Compile

/- A member spreads a schema, when it is compiled with some names. -/
def SpreadBy
    (compiler : Compiler)
    (expand : Expand)
    (registry : Registry)
    (member : Member)
    (source : Schema) : Prop :=
  ∃ argument note later,
    member = .spread ⟨.spread argument, note⟩ ∧
      outcome (expr compiler expand argument) registry = (.ok source, later)

/-
  One of several members spreads a schema, when it is compiled with the
  names behind the members in front of it.
-/
def Spreads
    (compiler : Compiler)
    (expand : Expand)
    (previous : Option Member)
    (fields : Fields)
    (registry : Registry)
    (members : List Member)
    (source : Schema) : Prop :=
  ∃ before member rest between middle,
    members = before ++ member :: rest ∧
      outcome (memberList compiler expand previous fields before) registry =
        (.ok between, middle) ∧
      SpreadBy compiler expand middle member source

variable {compiler : Compiler}
variable {expand : Expand}
variable {previous : Option Member}
variable {fields after : Fields}
variable {registry later : Registry}

theorem not_spreads_nil
    {source : Schema} :
    ¬Spreads compiler expand previous fields registry [] source := by
  rintro ⟨before, member, rest, between, middle, hMembers, -⟩
  cases before <;> cases hMembers

/- A schema is spread by the first member, or by one of the others. -/
theorem spreads_cons_iff
    {member : Member}
    {rest : List Member}
    {source : Schema}
    (hStep :
      outcome (memberStep compiler expand previous fields member) registry =
        (.ok after, later)) :
    Spreads compiler expand previous fields registry (member :: rest)
        source ↔
      SpreadBy compiler expand registry member source ∨
        Spreads compiler expand (some member) after later rest source := by
  constructor
  · rintro ⟨before, other, behind, between, middle, hMembers, hBefore, hBy⟩
    cases before with
    | nil =>
        cases hMembers
        rw [memberList] at hBefore
        cases hBefore
        exact .inl hBy
    | cons first before =>
        cases hMembers
        rw [memberList_cons, outcome_bind, hStep] at hBefore
        exact .inr ⟨before, other, behind, between, middle, rfl, hBefore,
          hBy⟩
  · rintro (hBy | ⟨before, other, behind, between, middle, rfl, hBefore,
      hBy⟩)
    · refine ⟨[], member, rest, fields, registry, rfl, ?_, hBy⟩
      rw [memberList]
      rfl
    · refine ⟨member :: before, other, behind, between, middle, rfl, ?_,
        hBy⟩
      rw [memberList_cons, outcome_bind, hStep]
      exact hBefore

/- A property adds neither title nor description. -/
theorem brings_ordinaryInto
    {name : String}
    {computed : Bool}
    {value : Expr}
    {comments : Comments}
    (hEnds :
      outcome
          (ordinaryInto compiler expand previous fields name computed value
            comments) registry =
        (.ok after, later)) :
    Fields.Brings False fields after := by
  unfold ordinaryInto at hEnds
  split at hEnds
  · cases hEnds
    exact (Fields.Brings.toggleRequired fields name false).silent
      (.removeProperty _ name)
  · rw [outcome_bind] at hEnds
    rcases andThen_eq_ok hEnds with ⟨schema, between, -, hRest⟩
    cases hRest
    have hToggled := Fields.Brings.toggleRequired fields name !computed
    generalize Fields.toggleRequired fields name (!computed) = toggled
      at hToggled ⊢
    rcases Member.describe_cases toggled schema comments previous with
      ⟨described, own, hSame, rfl | ⟨other, first, rfl⟩⟩
    · rw [hSame]
      exact hToggled.silent (.insert _ _ _ rfl)
    · rw [hSame]
      exact (hToggled.silent (.describeProperty _ other first)).silent
        (.insert _ _ _ rfl)

variable {version : Version}

/- Nor does a directive. -/
theorem brings_propertyInto
    {key : Key}
    {computed : Bool}
    {value : Expr}
    {span : Span}
    {comments : Comments}
    (hEnds :
      outcome
          (propertyInto { version := version } expand previous fields key
            computed value span comments) registry =
        (.ok after, later)) :
    Fields.Brings False fields after := by
  rcases key.pattern_or_word with
    ⟨pattern, flags, rfl⟩ | ⟨name, hWord⟩ | hNameless
  · rw [propertyInto_pattern] at hEnds
    cases hEnds
    exact .refl fields
  · cases hDirective : directive? { version := version } name with
    | none =>
        rw [propertyInto_ordinary hWord hDirective] at hEnds
        exact brings_ordinaryInto hEnds
    | some entry =>
        rw [propertyInto_directive hWord hDirective, outcome_bind] at hEnds
        rcases andThen_eq_ok hEnds with ⟨answer, between, hRun, hRest⟩
        rcases finish_of_run hRun with ⟨-, result, hFinish⟩
        have hEntry := (mem_of_directive? hDirective).1
        rcases Method.setsKey_shared entry hEntry rfl hFinish with
          ⟨directed, given, hFixed, -, rfl⟩
        cases hRest
        exact .applyEntry fields given hFixed
  · rcases hNameless span with ⟨error, hError⟩
    rw [propertyInto_nameless hError] at hEnds
    cases hEnds

/- Only a spread does, if the schema that is spread has one. -/
theorem brings_memberStep
    {member : Member}
    (hMember : member.spreadsLiteral = false)
    (hEnds :
      outcome
          (memberStep { version := version } expand previous fields member)
          registry =
        (.ok after, later)) :
    Fields.Brings
      (∃ source,
        SpreadBy { version := version } expand registry member source ∧
          source.get? "description" ≠ none)
      fields after := by
  cases member with
  | property key computed value span comments =>
      refine (brings_propertyInto hEnds).congr ?_
      rw [false_iff]
      rintro ⟨source, ⟨argument, note, later, hSame, -⟩, -⟩
      cases hSame
  | spread e =>
      rcases spread_or_other e with ⟨argument, note, rfl⟩ | hPlain
      · have hOther :
            ∀ members inner middle note,
              argument =
                  ⟨.unary .not ⟨.unary .not ⟨.object members, inner⟩,
                    middle⟩, note⟩ →
                False := by
          rintro members inner middle note rfl
          cases hMember
        rw [memberStep, spreadInto] at hEnds
        · rw [outcome_bind] at hEnds
          rcases andThen_eq_ok hEnds with ⟨source, between, hSource, hRest⟩
          rw [outcome_check] at hRest
          refine (Fields.Brings.merge (Prod.mk.inj hRest).1).congr ?_
          constructor
          · intro hDescribed
            exact ⟨source, ⟨argument, note, between, rfl, hSource⟩,
              hDescribed⟩
          -- The argument has one outcome, so this is what was merged.
          · rintro ⟨_, ⟨_, _, _, hSame, hOutcome⟩, hDescribed⟩
            cases hSame
            cases hSource.symm.trans hOutcome
            exact hDescribed
        · exact hOther
      · rw [memberStep] at hEnds
        · cases hEnds
        · exact hPlain

/- So it is for all members, by induction on them. -/
theorem brings_memberList
    {members : List Member}
    (hMembers : ∀ member ∈ members, member.spreadsLiteral = false)
    (hEnds :
      outcome
          (memberList { version := version } expand previous fields members)
          registry =
        (.ok after, later)) :
    Fields.Brings
      (∃ source,
        Spreads { version := version } expand previous fields registry
            members source ∧
          source.get? "description" ≠ none)
      fields after := by
  induction members generalizing previous fields registry with
  | nil =>
      rw [memberList] at hEnds
      cases hEnds
      refine (Fields.Brings.refl _).congr ?_
      rw [false_iff]
      rintro ⟨source, hSpreads, -⟩
      exact not_spreads_nil hSpreads
  | cons member rest ih =>
      rw [List.forall_mem_cons] at hMembers
      rw [memberList_cons, outcome_bind] at hEnds
      rcases andThen_eq_ok hEnds with ⟨between, middle, hStep, hRest⟩
      refine ((brings_memberStep hMembers.1 hStep).trans
        (ih hMembers.2 hRest)).congr ?_
      simp only [spreads_cons_iff hStep, or_and_right, exists_or]

/-
  Title and description of an object literal come first exactly if no
  schema that is spread into it has a description. So it is, if the
  literal is described further on.
-/
theorem namesLead_object_iff
    {members : List Member}
    {note : Note}
    {schema : Schema}
    (hMembers : ∀ member ∈ members, member.spreadsLiteral = false)
    (hEnds :
      outcome
          (expr { version := version } expand ⟨.object members, note⟩)
          registry =
        (.ok schema, later))
    (comments : List Comment) :
    (schema.describe comments).NamesLead ↔
      ∀ source,
        Spreads { version := version } expand none Fields.skeleton registry
            members source →
          source.get? "description" = none := by
  rcases parts_of_object hEnds with
    ⟨fields, whole, between, hFields, rfl, hWhole⟩
  have hBrings := brings_memberList hMembers hFields
  have hPatterns : Fields.Brings False fields whole := by
    rcases hWhole with ⟨-, rfl, -⟩ | ⟨patterns, -, rfl⟩
    · exact .refl _
    · exact .addPatterns _ _
  have hAll := hBrings.trans hPatterns
  rw [Schema.describe_describe,
    Schema.namesLead_describe_iff (hAll.type (by decide))
      (fun hTitle => absurd (hAll.title hTitle) (by decide)),
    hAll.description]
  have hSkeleton : "description" ∉ OrderedMap.keys Fields.skeleton := by
    decide
  constructor
  · intro hNone source hSpreads
    by_contra hDescribed
    exact hNone (.inr (.inl ⟨source, hSpreads, hDescribed⟩))
  · rintro hSources (hKey | ⟨source, hSpreads, hDescribed⟩ | hFalse)
    · exact hSkeleton hKey
    · exact hDescribed (hSources source hSpreads)
    · exact hFalse

end Compile

end SchemaLang
