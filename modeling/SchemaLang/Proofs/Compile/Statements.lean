import SchemaLang.Proofs.Compile.Members
import SchemaLang.Proofs.Compile.Outcome
import SchemaLang.Proofs.Compile.Runs
import SchemaLang.Proofs.Schema.Statement

/-
  Object literals without spreads and directives, name by name. Their
  members state properties or take them away, and the required names and
  the properties are what has been said in the end. Patterns follow when
  all other members are compiled.

  Main declarations:
    * `Member.isOrdinary`
    * `Compile.statements` and `Compile.patternValues`
    * `Compile.reflected_memberStep` and `Compile.reflected_memberList`
    * `Compile.object_reflects_statements`
-/

namespace SchemaLang

------------------------------------------------------------
-- What Members Say
------------------------------------------------------------

namespace Member

/- Whether a member is no spread, and its key names no directive. -/
def isOrdinary
    (compiler : Compiler) : Member → Bool
  | property key _ _ _ _ =>
    key.word?.all fun name => (Compile.directive? compiler name).isNone
  | spread _ => false

/-
  What is written in a member that has a name: the name, whether it is
  computed, and whether there is a property behind it.
-/
def outline? : Member → Option (String × Bool × Bool)
  | property key computed value _ _ =>
    key.word?.map fun name => (name, computed, !value.isUndefined)
  | spread _ => none

/- The pattern, if the key of a member is one. -/
def pattern? : Member → Option String
  | property (.regex pattern _) _ _ _ _ => some pattern
  | _ => none

end Member

/- What is written of a statement. -/
def Statement.outline
    (statement : Statement) : String × Bool × Bool :=
  (statement.name, statement.computed, statement.isKept)

namespace Compile

/- What a member says, if it has a name. Its value is compiled. -/
def statement
    (compiler : Compiler)
    (expand : Expand) : Member → Compile (Option Statement)
  | .property key computed value _ _ =>
    match key.word? with
    | none => pure none
    | some name =>
      if value.isUndefined then pure (some ⟨name, computed, none⟩)
      else do
        let schema ← expr compiler expand value
        pure (some ⟨name, computed, some schema⟩)
  | .spread _ => pure none

/- What several members say, one after the other. -/
def statements
    (compiler : Compiler)
    (expand : Expand) : List Member → Compile (List Statement)
  | [] => pure []
  | member :: rest => do
    let first ← statement compiler expand member
    let others ← statements compiler expand rest
    pure (first.toList ++ others)

/- The patterns among several members, with their compiled values. -/
def patternValues
    (compiler : Compiler)
    (expand : Expand) : List Member → Compile (List (String × Schema))
  | [] => pure []
  | .property (.regex pattern _) _ value _ _ :: rest => do
    let schema ← expr compiler expand value
    let others ← patternValues compiler expand rest
    pure ((pattern, schema) :: others)
  | _ :: rest => patternValues compiler expand rest

variable {compiler : Compiler}
variable {expand : Expand}
variable {registry after : Registry}

theorem outline_of_statement
    {member : Member}
    {next : Option Statement}
    (hEnds :
      outcome (statement compiler expand member) registry =
        (.ok next, after)) :
    next.map Statement.outline = member.outline? := by
  cases member with
  | spread e =>
      cases hEnds
      rfl
  | property key computed value span comments =>
      rw [statement] at hEnds
      rw [Member.outline?]
      split at hEnds
      · rename_i hWord
        cases hEnds
        rw [hWord]
        rfl
      · rename_i name hWord
        rw [hWord]
        split at hEnds
        · rename_i hUndefined
          cases hEnds
          simp [Statement.outline, Statement.isKept, hUndefined]
        · rename_i hUndefined
          rw [outcome_bind] at hEnds
          rcases andThen_eq_ok hEnds with ⟨schema, between, -, hRest⟩
          cases hRest
          simp [Statement.outline, Statement.isKept, hUndefined]

/- The statements are those of the members, in their order. -/
theorem outline_of_statements
    {members : List Member}
    {said : List Statement}
    (hEnds :
      outcome (statements compiler expand members) registry =
        (.ok said, after)) :
    said.map Statement.outline = members.filterMap Member.outline? := by
  induction members generalizing said registry with
  | nil =>
      cases hEnds
      rfl
  | cons member rest ih =>
      rw [statements, outcome_bind] at hEnds
      rcases andThen_eq_ok hEnds with ⟨first, between, hFirst, hRest⟩
      rw [outcome_bind] at hRest
      rcases andThen_eq_ok hRest with ⟨others, last, hOthers, hBoth⟩
      cases hBoth
      rw [List.map_append, ih hOthers, List.filterMap_cons,
        ← outline_of_statement hFirst]
      cases first with
      | none => rfl
      | some _ => rfl

/- The patterns are those of the members, in their order. -/
theorem names_of_patternValues
    {members : List Member}
    {patterns : List (String × Schema)}
    (hEnds :
      outcome (patternValues compiler expand members) registry =
        (.ok patterns, after)) :
    patterns.map Prod.fst = members.filterMap Member.pattern? := by
  fun_induction patternValues compiler expand members
    generalizing registry patterns with
  | case1 =>
      cases hEnds
      rfl
  | case2 pattern flags computed value span comments rest ih =>
      rw [outcome_bind] at hEnds
      rcases andThen_eq_ok hEnds with ⟨schema, between, -, hRest⟩
      rw [outcome_bind] at hRest
      rcases andThen_eq_ok hRest with ⟨others, last, hOthers, hBoth⟩
      cases hBoth
      rw [List.map_cons, ih hOthers]
      rfl
  | case3 member rest hOther ih =>
      rw [List.filterMap_cons, ih hEnds]
      have hNone : member.pattern? = none := by
        unfold Member.pattern?
        split
        · exact (hOther _ _ _ _ _ _ rfl).elim
        · rfl
      rw [hNone]

------------------------------------------------------------
-- Members That Have A Name
------------------------------------------------------------

open Statement (Reflected)

variable {said : List Statement}
variable {required : List String}
variable {properties : Fields}
variable {previous : Option Member}
variable {fields : Fields}

/- A property that is stated or taken away is reflected at once. -/
theorem reflected_ordinaryInto
    {key : Key}
    {name : String}
    {computed : Bool}
    {value : Expr}
    {span : Span}
    {comments : Comments}
    (hWord : key.word? = some name)
    (hReflected : Reflected said required properties)
    (hEnds :
      outcome
          (ordinaryInto compiler expand previous
            (Fields.ofProperties required properties) name computed value
            comments) registry =
        (.ok fields, after)) :
    ∃ next required' properties',
      outcome
          (statement compiler expand
            (.property key computed value span comments)) registry =
        (.ok next, after) ∧
      fields = Fields.ofProperties required' properties' ∧
      Reflected (said ++ next.toList) required' properties' := by
  rw [statement, hWord]
  dsimp only
  unfold ordinaryInto at hEnds
  split at hEnds
  · rename_i hUndefined
    cases hEnds
    rw [if_pos hUndefined, Fields.toggleRequired_ofProperties,
      Fields.removeProperty_ofProperties]
    exact ⟨_, _, _, rfl, rfl, hReflected.unstated name computed⟩
  · rename_i hUndefined
    rw [outcome_bind] at hEnds
    rcases andThen_eq_ok hEnds with ⟨schema, between, hSchema, hRest⟩
    rw [if_neg hUndefined, outcome_bind, hSchema]
    cases hRest
    rw [Fields.toggleRequired_ofProperties]
    rcases Member.describe_ofProperties
        (Reconciled.demand required name !computed) properties schema
        comments previous with ⟨others, own, hSame, hOthers⟩
    rw [hSame, Fields.insertProperty_ofProperties]
    refine ⟨_, _, _, rfl, rfl, ?_⟩
    -- A comment may describe the property in front, too.
    rcases hOthers with rfl | ⟨other, first, rfl⟩
    · exact hReflected.stated name computed schema own
    · exact (hReflected.describedAt other first).stated name computed
        schema own

/- So is what any member says that is compiled. -/
theorem reflected_memberStep
    {member : Member}
    (hOrdinary : member.isOrdinary compiler = true)
    (hReflected : Reflected said required properties)
    (hEnds :
      outcome
          (memberStep compiler expand previous
            (Fields.ofProperties required properties) member) registry =
        (.ok fields, after)) :
    ∃ next required' properties',
      outcome (statement compiler expand member) registry =
        (.ok next, after) ∧
      fields = Fields.ofProperties required' properties' ∧
      Reflected (said ++ next.toList) required' properties' := by
  cases member with
  | spread e => cases hOrdinary
  | property key computed value span comments =>
      unfold memberStep at hEnds
      dsimp only at hEnds
      rcases key.pattern_or_word with
        ⟨pattern, flags, rfl⟩ | ⟨name, hWord⟩ | hNameless
      · rw [propertyInto_pattern] at hEnds
        cases hEnds
        refine ⟨none, required, properties, rfl, rfl, ?_⟩
        rwa [Option.toList_none, List.append_nil]
      · have hDirective : directive? compiler name = none := by
          simpa [Member.isOrdinary, hWord] using hOrdinary
        rw [propertyInto_ordinary hWord hDirective] at hEnds
        exact reflected_ordinaryInto hWord hReflected hEnds
      · rcases hNameless span with ⟨error, hError⟩
        rw [propertyInto_nameless hError] at hEnds
        cases hEnds

/- And so is what all members say, by induction on them. -/
theorem reflected_memberList
    {members : List Member}
    (hOrdinary : ∀ member ∈ members, member.isOrdinary compiler = true)
    (hReflected : Reflected said required properties)
    (hEnds :
      outcome
          (memberList compiler expand previous
            (Fields.ofProperties required properties) members) registry =
        (.ok fields, after)) :
    ∃ next required' properties',
      outcome (statements compiler expand members) registry =
        (.ok next, after) ∧
      fields = Fields.ofProperties required' properties' ∧
      Reflected (said ++ next) required' properties' := by
  induction members generalizing said required properties previous
    registry with
  | nil =>
      rw [memberList] at hEnds
      cases hEnds
      refine ⟨[], required, properties, rfl, rfl, ?_⟩
      rwa [List.append_nil]
  | cons member rest ih =>
      rw [List.forall_mem_cons] at hOrdinary
      rw [memberList_cons, outcome_bind] at hEnds
      rcases andThen_eq_ok hEnds with ⟨between, middle, hStep, hRest⟩
      rcases reflected_memberStep hOrdinary.1 hReflected hStep with
        ⟨first, required', properties', hFirst, rfl, hFirstReflected⟩
      rcases ih hOrdinary.2 hFirstReflected hRest with
        ⟨others, required'', properties'', hOthers, hFields, hAll⟩
      refine ⟨first.toList ++ others, required'', properties'', ?_,
        hFields, ?_⟩
      · rw [statements, outcome_bind, hFirst]
        dsimp only [andThen]
        rw [outcome_bind, hOthers]
        rfl
      · rwa [← List.append_assoc]

------------------------------------------------------------
-- Patterns
------------------------------------------------------------

/- The patterns are added with their values, one after the other. -/
theorem insertAll_of_patternList
    {members : List Member}
    {patterns result : OrderedMap Schema}
    (hEnds :
      outcome (patternList compiler expand patterns members) registry =
        (.ok result, after)) :
    ∃ found,
      outcome (patternValues compiler expand members) registry =
        (.ok found, after) ∧
      result = patterns.insertAll found := by
  fun_induction patternValues compiler expand members
    generalizing registry patterns with
  | case1 =>
      rw [patternList] at hEnds
      cases hEnds
      exact ⟨[], rfl, rfl⟩
  | case2 pattern flags computed value span comments rest ih =>
      rw [patternList, outcome_bind] at hEnds
      rcases andThen_eq_ok hEnds with ⟨schema, between, hSchema, hRest⟩
      rcases ih hRest with ⟨others, hOthers, hResult⟩
      refine ⟨(pattern, schema) :: others, ?_, hResult⟩
      rw [outcome_bind, hSchema]
      dsimp only [andThen]
      rw [outcome_bind, hOthers]
      rfl
  | case3 member rest hOther ih =>
      rw [patternList] at hEnds
      · exact ih hEnds
      · exact hOther

theorem patternValues_of_not_any
    {members : List Member}
    (hNone : members.any Member.isPattern = false) :
    patternValues compiler expand members = pure [] := by
  fun_induction patternValues compiler expand members with
  | case1 => rfl
  | case2 pattern flags computed value span comments rest ih =>
      cases hNone
  | case3 member rest hOther ih =>
      rw [List.any_cons, Bool.or_eq_false_iff] at hNone
      exact ih hNone.2

/- The schema of a pattern within an object schema. -/
def patternSchema?
    (schema : Schema)
    (pattern : String) : Option Schema :=
  (schema.get? "patternProperties").bind fun patterns =>
    patterns.get? pattern

/- An object of properties gets patterns besides. -/
theorem addPatterns_ofProperties
    (required : List String)
    (properties patterns : Fields) :
    Fields.addPatterns (Fields.ofProperties required properties) patterns =
      (Fields.ofProperties required properties).insert
        "patternProperties" (.object patterns) := rfl

/-
  The entries behind all members and patterns are properties that
  reflect the statements, and patterns with their last values.
-/
theorem reflected_object
    {members : List Member}
    {note : Note}
    {schema : Schema}
    (hOrdinary : ∀ member ∈ members, member.isOrdinary compiler = true)
    (hEnds :
      outcome (expr compiler expand ⟨.object members, note⟩) registry =
        (.ok schema, after)) :
    ∃ said found between required properties,
      outcome (statements compiler expand members) registry =
        (.ok said, between) ∧
      outcome (patternValues compiler expand members) between =
        (.ok found, after) ∧
      Reflected said required properties ∧
      schema.get? "required" = some (.strings required) ∧
      schema.get? "properties" = some (.object properties) ∧
      ∀ pattern,
        patternSchema? schema pattern = Pairs.last? found pattern := by
  rcases parts_of_object hEnds with
    ⟨fields, whole, between, hMembers, rfl, hWhole⟩
  rcases reflected_memberList hOrdinary Reflected.nil hMembers with
    ⟨said, required, properties, hSaid, rfl, hReflected⟩
  have hParts :
      ∃ found,
        outcome (patternValues compiler expand members) between =
          (.ok found, after) ∧
        whole.get? "required" = some (.strings required) ∧
        whole.get? "properties" = some (.object properties) ∧
        ∀ pattern,
          (whole.get? "patternProperties").bind (·.get? pattern) =
            Pairs.last? found pattern := by
    rcases hWhole with ⟨hNone, rfl, rfl⟩ | ⟨patterns, hFound, rfl⟩
    · rw [patternValues_of_not_any hNone]
      exact ⟨[], rfl, rfl, rfl, fun _ => rfl⟩
    · rcases insertAll_of_patternList hFound with ⟨found, hValues, rfl⟩
      rw [addPatterns_ofProperties]
      refine ⟨found, hValues, rfl, rfl, fun pattern => ?_⟩
      exact (OrderedMap.get?_insertAll .empty found pattern).trans
        Option.or_none
  rcases hParts with ⟨found, hFound, hRequired, hProperties, hPattern⟩
  rcases Schema.exists_describe_object whole note.comments.preferred with
    ⟨described, hDescribed, hGet⟩
  have hKey :
      ∀ key, key ≠ "description" →
        (Schema.object described).get? key = whole.get? key := hGet
  rw [hDescribed]
  refine ⟨said, found, between, required, properties, hSaid, hFound,
    hReflected, ?_, ?_, fun pattern => ?_⟩
  · rw [hKey _ (by decide), hRequired]
  · rw [hKey _ (by decide), hProperties]
  · unfold patternSchema?
    rw [hKey _ (by decide), hPattern]

------------------------------------------------------------
-- Object Literals
------------------------------------------------------------

/-
  An object literal is compiled to what its members say last. There is
  a property exactly for each name that is not taken away in the end,
  with the schema that was compiled last and perhaps a description, and
  in the order of the first statements since a removal. The required
  names are distinct, and they are those that are stated last without
  being computed. A pattern has the schema that was compiled last.
-/
theorem object_reflects_statements
    (compiler : Compiler)
    (expand : Expand)
    (members : List Member)
    (note : Note)
    (registry after : Registry)
    (schema : Schema)
    (hOrdinary : ∀ member ∈ members, member.isOrdinary compiler = true)
    (hEnds :
      outcome (expr compiler expand ⟨.object members, note⟩) registry =
        (.ok schema, after)) :
    ∃ said found between required properties,
      outcome (statements compiler expand members) registry =
          (.ok said, between) ∧
      outcome (patternValues compiler expand members) between =
          (.ok found, after) ∧
      said.map Statement.outline = members.filterMap Member.outline? ∧
      found.map Prod.fst = members.filterMap Member.pattern? ∧
      schema.get? "required" = some (.strings required) ∧
      schema.get? "properties" = some (.object properties) ∧
      (∀ name, name ∈ OrderedMap.keys properties ↔
        ∃ statement, Statement.last? said name = some statement ∧
          statement.isKept = true) ∧
      (∀ name statement value,
        Statement.last? said name = some statement →
          statement.value = some value →
            ∃ comments, OrderedMap.get? properties name =
              some (value.describe comments)) ∧
      (∀ name, name ∈ required ↔
        ∃ statement, Statement.last? said name = some statement ∧
          statement.isRequired = true) ∧
      required.Nodup ∧
      OrderedMap.keys properties =
        Statement.standingNames Statement.isKept said ∧
      (∀ pattern,
        patternSchema? schema pattern = Pairs.last? found pattern ∧
          ((patternSchema? schema pattern).isSome = true ↔
            pattern ∈ members.filterMap Member.pattern?)) ∧
      ((∀ statement ∈ said, statement.isRequired = true) →
        required = (said.map Statement.name).eraseDups) := by
  rcases reflected_object hOrdinary hEnds with
    ⟨said, found, between, required, properties, hSaid, hFound, hReflected,
      hRequired, hProperties, hPatterns⟩
  have hNames := names_of_patternValues hFound
  refine ⟨said, found, between, required, properties, hSaid, hFound,
    outline_of_statements hSaid, hNames, hRequired, hProperties,
    hReflected.mem_properties, hReflected.values, hReflected.mem_required,
    hReflected.nodup_required, hReflected.keys, fun pattern => ?_,
    fun hAll => ?_⟩
  · refine ⟨hPatterns pattern, ?_⟩
    rw [hPatterns, Pairs.isSome_last?_iff, Pairs.names, hNames]
  · rw [hReflected.required, Statement.standingNames_of_all hAll]

/-
  `{ a: int, b: string, a: undefined, /x/: int, ["a"]: uint, b: number,
  /x/: string }`.
-/
def restatedMembers : List Member :=
  let name (name : String) : Expr := ⟨.identifier name, {}⟩
  [.property (.identifier "a") false (name "int") {} {},
    .property (.identifier "b") false (name "string") {} {},
    .property (.identifier "a") false (name "undefined") {} {},
    .property (.regex "x" "") false (name "int") {} {},
    .property (.string "a") true (name "uint") {} {},
    .property (.identifier "b") false (name "number") {} {},
    .property (.regex "x" "") false (name "string") {} {}]

theorem outcome_restatedMembers :
    ∃ schema,
      outcome (compile {} ⟨.object restatedMembers, {}⟩) Registry.initial =
        (.ok schema, Registry.initial) := by
  rw [outcome_compile]
  simp only [restatedMembers, expr, memberList, propertyInto, patternList,
    resolve, Key.propertyName, Expr.referenceName]
  exact ⟨_, rfl⟩

/- What is said of `a` and `b`, in the end about `a` as of an option. -/
theorem outcome_statements_restatedMembers :
    ∃ int string uint number,
      outcome
          (statements {} (expandWithin {} Registry.initial.declaredNames)
            restatedMembers) Registry.initial =
        (.ok [⟨"a", false, some int⟩, ⟨"b", false, some string⟩,
          ⟨"a", false, none⟩, ⟨"a", true, some uint⟩,
          ⟨"b", false, some number⟩], Registry.initial) := by
  simp only [restatedMembers, statements, statement, expr, resolve,
    Key.word?, Expr.referenceName]
  exact ⟨_, _, _, _, rfl⟩

/- `a` is stated anew behind `b`, and not required any more. -/
theorem object_reflects_restatedMembers :
    (∀ member ∈ restatedMembers, member.isOrdinary {} = true) ∧
      ∃ schema required properties,
        outcome (compile {} ⟨.object restatedMembers, {}⟩)
            Registry.initial =
          (.ok schema, Registry.initial) ∧
        schema.get? "required" = some (.strings required) ∧
        schema.get? "properties" = some (.object properties) ∧
        OrderedMap.keys properties = ["b", "a"] ∧
        "b" ∈ required ∧ "a" ∉ required ∧ required.Nodup ∧
        (patternSchema? schema "x").isSome = true := by
  rcases outcome_restatedMembers with ⟨schema, hEnds⟩
  rcases outcome_statements_restatedMembers with
    ⟨int, string, uint, number, hKnown⟩
  have hExpr := hEnds
  rw [outcome_compile] at hExpr
  have hOrdinary :
      ∀ member ∈ restatedMembers, member.isOrdinary {} = true := by
    decide
  rcases object_reflects_statements {} _ restatedMembers {} _ _ schema
      hOrdinary hExpr with
    ⟨said, found, between, required, properties, hSaid, -, -, -, hRequired,
      hProperties, -, -, hMember, hDistinct, hKeys, hPatterns, -⟩
  cases hKnown.symm.trans hSaid
  refine ⟨hOrdinary, schema, required, properties, hEnds, hRequired,
    hProperties, hKeys, ?_, ?_, hDistinct, ?_⟩
  · exact (hMember "b").mpr ⟨_, rfl, rfl⟩
  · intro hStated
    rcases (hMember "a").mp hStated with ⟨statement, hLast, hStands⟩
    cases hLast
    cases hStands
  · exact (hPatterns "x").2.mpr (by decide)

end Compile

end SchemaLang
