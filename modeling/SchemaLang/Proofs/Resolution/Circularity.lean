import Mathlib.Logic.Relation
import SchemaLang.Compile.Declared
import SchemaLang.Proofs.OrderedMap
import SchemaLang.Proofs.Resolution.References

/-
  Declared names that lead to one another. A name whose simple
  expression leads to a cycle is not resolved, and a name is
  reported as circular only if it lies on a cycle.

  Main declarations:
    * `Registry.Leads`
    * `Registry.OnCycle`
    * `Registry.LeadsToCycle`
    * `Compile.settles_resolve`
    * `Compile.compile_reference_iff`
-/

namespace SchemaLang

------------------------------------------------------------
-- The Graph Of Declared Names
------------------------------------------------------------

namespace Registry

/- A name stands for an expression. -/
def Declares
    (registry : Registry)
    (name : String) : Prop :=
  ∃ source, registry.get? name = some (.source source)

/- The expression of a name mentions a declared name. -/
def Leads
    (registry : Registry)
    (name next : String) : Prop :=
  (∃ source,
    registry.get? name = some (.source source) ∧
      next ∈ source.mentions) ∧
    registry.Declares next

/- A name leads to another one in any number of steps. -/
def Reaches
    (registry : Registry) : String → String → Prop :=
  Relation.ReflTransGen registry.Leads

/- A name leads back to itself. -/
def OnCycle
    (registry : Registry)
    (name : String) : Prop :=
  Relation.TransGen registry.Leads name name

/- A cycle can be reached from a name. -/
def LeadsToCycle
    (registry : Registry)
    (name : String) : Prop :=
  ∃ again, registry.Reaches name again ∧ registry.OnCycle again

variable {registry : Registry}
variable {name next : String}

theorem Leads.declares
    (hLeads : registry.Leads name next) :
    registry.Declares name := by
  rcases hLeads with ⟨⟨source, hSource, -⟩, -⟩
  exact ⟨source, hSource⟩

/- Only declared names lead to declared names. -/
theorem declares_of_reaches
    (hReaches : registry.Reaches name next)
    (hNext : registry.Declares next) :
    registry.Declares name := by
  rcases Relation.ReflTransGen.cases_head hReaches with
    rfl | ⟨middle, hFirst, -⟩
  · exact hNext
  · exact hFirst.declares

theorem OnCycle.declares
    (hCycle : registry.OnCycle name) :
    registry.Declares name := by
  rcases Relation.TransGen.head'_iff.mp hCycle with
    ⟨middle, hFirst, -⟩
  exact hFirst.declares

/- A name that is not declared leads nowhere. -/
theorem not_leadsToCycle_of_not_declares
    (hName : ¬ registry.Declares name) :
    ¬ registry.LeadsToCycle name := by
  rintro ⟨again, hReaches, hCycle⟩
  exact hName (declares_of_reaches hReaches hCycle.declares)

/- A name leads to a cycle only through a name that it mentions. -/
theorem exists_mention_of_leadsToCycle
    {source : Expr}
    (hSource : registry.get? name = some (.source source))
    (hCycle : registry.LeadsToCycle name) :
    ∃ next ∈ source.mentions, registry.LeadsToCycle next := by
  have hMention :
      ∀ next, registry.Leads name next → next ∈ source.mentions := by
    rintro next ⟨⟨other, hOther, hNext⟩, -⟩
    rw [hSource] at hOther
    cases hOther
    exact hNext
  rcases hCycle with ⟨again, hReaches, hAgain⟩
  rcases Relation.ReflTransGen.cases_head hReaches with
    rfl | ⟨next, hFirst, hRest⟩
  · rcases Relation.TransGen.head'_iff.mp hAgain with
      ⟨next, hFirst, hRest⟩
    exact ⟨next, hMention next hFirst, name, hRest, hAgain⟩
  · exact ⟨next, hMention next hFirst, again, hRest, hAgain⟩

end Registry

------------------------------------------------------------
-- Faults
------------------------------------------------------------

namespace Compile

open Registry

/- A name that is unknown, though it is referred to. -/
def IsMissing
    (registry : Registry)
    (name missing : String) : Prop :=
  registry.get? missing = none ∧
    (missing = name ∨
      ∃ other source,
        registry.get? other = some (.source source) ∧
          missing ∈ source.mentions)

/-
  Why a name is not resolved: an unknown name is referred to, or a
  name that is reached lies on a cycle or may no longer be referred
  to.
-/
def Fault
    (registry : Registry)
    (names : List String)
    (name : String)
    (error : CompileError) : Prop :=
  (∃ missing,
    IsMissing registry name missing ∧
      ∃ span, error = ⟨.unknownReference missing, span⟩) ∨
    ∃ again,
      registry.Reaches name again ∧
        (registry.OnCycle again ∨
          (registry.Declares again ∧ again ∉ names)) ∧
        ∃ span, error = ⟨.circular again, span⟩

variable {registry : Registry}

/-
  A fault of a name that is mentioned is one of the name itself. If
  the name is what may no longer be referred to, it is on a cycle.
-/
theorem Fault.of_mention
    {names : List String}
    {name next : String}
    {source : Expr}
    {error : CompileError}
    (hSource : registry.get? name = some (.source source))
    (hNext : next ∈ source.mentions)
    (hFault : Fault registry (names.erase name) next error) :
    Fault registry names name error := by
  rcases hFault with
    ⟨missing, ⟨hNone, hWhere⟩, hError⟩ |
    ⟨again, hReaches, hAgain, hError⟩
  · refine .inl ⟨missing, ⟨hNone, .inr ?_⟩, hError⟩
    rcases hWhere with rfl | hOther
    · exact ⟨name, source, hSource, hNext⟩
    · exact hOther
  · have hDeclares : registry.Declares again := by
      rcases hAgain with hCycle | ⟨hDeclares, -⟩
      · exact hCycle.declares
      · exact hDeclares
    have hLeads : registry.Leads name next :=
      ⟨⟨source, hSource, hNext⟩,
        declares_of_reaches hReaches hDeclares⟩
    refine .inr ⟨again, hReaches.head hLeads, ?_, hError⟩
    rcases hAgain with hCycle | ⟨-, hErased⟩
    · exact .inl hCycle
    · by_cases hSame : again = name
      · subst hSame
        exact .inl (Relation.TransGen.head'_iff.mpr
          ⟨next, hLeads, hReaches⟩)
      · rw [List.mem_erase_of_ne hSame] at hErased
        exact .inr ⟨hDeclares, hErased⟩

/-
  The induction is on the number of names that may still be referred
  to. A name that is resolved leads to no cycle.
-/
theorem settles_resolve
    (compiler : Compiler)
    (names : List String)
    {name : String}
    (hSimple :
      ∀ other source, registry.Reaches name other →
        registry.get? other = some (.source source) →
          source.isSimple = true)
    (note : Note) :
    Settles registry
      (resolve (expandWithin compiler names) ⟨.identifier name, note⟩)
      (¬ registry.LeadsToCycle name) (Fault registry names name) := by
  induction hCount : names.length using Nat.strongRecOn
    generalizing names name note with
  | ind count ih =>
      have hRead :
          Yields registry
            (get : Compile Registry) registry := rfl
      unfold resolve
      refine .after (Yields.check rfl) (.after hRead ?_)
      cases hGet : registry.get? name with
      | none =>
          exact .inr ⟨_, rfl, .inl ⟨name, ⟨hGet, .inl rfl⟩, _, rfl⟩⟩
      | some entry =>
          cases entry with
          | compiled schema =>
              apply Settles.pure
              apply not_leadsToCycle_of_not_declares
              rintro ⟨source, hSource⟩
              rw [hGet] at hSource
              cases hSource
          | source source =>
              dsimp only
              rw [expandWithin]
              by_cases hMember : name ∈ names
              · rw [dif_pos hMember]
                have hLess : (names.erase name).length < count := by
                  have hPositive := List.length_pos_of_mem hMember
                  rw [List.length_erase_of_mem hMember, ← hCount]
                  omega
                have hInner :
                    SettlesExpr compiler
                      (expandWithin compiler (names.erase name))
                      registry (fun next => ¬ registry.LeadsToCycle next)
                      (Fault registry names name) source := by
                  apply settles_expr (hSimple name source .refl hGet)
                  intro next hNext inner
                  refine (ih _ hLess _ (fun other later hReaches hOther =>
                    ?_) inner rfl).imp id
                      fun _ => Fault.of_mention hGet hNext
                  have hLeads : registry.Leads name next :=
                    ⟨⟨source, hGet, hNext⟩,
                      declares_of_reaches hReaches ⟨later, hOther⟩⟩
                  exact hSimple other later (hReaches.head hLeads) hOther
                refine (hInner.map _).imp (fun hAll hCycle => ?_)
                  fun _ => id
                rcases exists_mention_of_leadsToCycle hGet hCycle with
                  ⟨next, hNext, hLater⟩
                exact hAll next hNext hLater
              · rw [dif_neg hMember]
                exact .inr ⟨_, rfl, .inr ⟨name, .refl,
                  .inr ⟨⟨source, hGet⟩, hMember⟩, _, rfl⟩⟩

------------------------------------------------------------
-- References
------------------------------------------------------------

theorem mem_declaredNames
    {name : String}
    (hDeclares : registry.Declares name) :
    name ∈ registry.declaredNames := by
  rcases hDeclares with ⟨source, hSource⟩
  unfold Registry.declaredNames
  rw [← OrderedMap.names_toList, OrderedMap.toList_filter, Pairs.names,
    List.mem_map]
  refine ⟨(name, .source source), ?_, rfl⟩
  rw [List.mem_filter]
  exact ⟨OrderedMap.mem_of_get? hSource, rfl⟩

/-
  If all names are known, a fault of a name that is not being
  resolved is a cycle that it reaches.
-/
theorem Fault.exists_onCycle
    {name : String}
    {error : CompileError}
    (hDeclared :
      ∀ other source, registry.get? other = some (.source source) →
        ∀ next ∈ source.mentions, registry.contains next = true)
    (hName : registry.contains name = true)
    (hFault : Fault registry registry.declaredNames name error) :
    ∃ again, registry.Reaches name again ∧ registry.OnCycle again ∧
      ∃ span, error = ⟨.circular again, span⟩ := by
  rcases hFault with
    ⟨missing, ⟨hNone, hWhere⟩, -⟩ | ⟨again, hReaches, hAgain, hError⟩
  · exfalso
    have hKnown : registry.contains missing = true := by
      rcases hWhere with rfl | ⟨other, source, hSource, hMentions⟩
      · exact hName
      · exact hDeclared other source hSource missing hMentions
    rw [OrderedMap.contains, hNone] at hKnown
    cases hKnown
  · rcases hAgain with hCycle | ⟨hDeclares, hAbsent⟩
    · exact ⟨again, hReaches, hCycle, hError⟩
    · exact absurd (mem_declaredNames hDeclares) hAbsent

/-
  Let all declared expressions be simple, and all names that they
  mention be known. A reference to a known name is compiled exactly
  if no cycle can be reached from the name, and otherwise a name on
  such a cycle is reported as circular. No name is given.
-/
theorem compile_reference_iff
    (compiler : Compiler)
    (registry : Registry)
    (hDeclared :
      ∀ other source, registry.get? other = some (.source source) →
        source.isSimple = true ∧
          ∀ next ∈ source.mentions, registry.contains next = true)
    (name : String)
    (hName : registry.contains name = true)
    (note : Note) :
    ((∃ schema,
      outcome (compile compiler ⟨.identifier name, note⟩) registry =
        (.ok schema, registry)) ↔
      ¬ registry.LeadsToCycle name) ∧
      (registry.LeadsToCycle name →
        ∃ again error,
          registry.Reaches name again ∧ registry.OnCycle again ∧
            outcome (compile compiler ⟨.identifier name, note⟩)
                registry = (.error error, registry) ∧
            error.cause.sort = .runtime ∧
            error.cause.message =
              "Circular reference: " ++ Quoted.quote again) := by
  have hCompile :
      outcome (compile compiler ⟨.identifier name, note⟩) registry =
        outcome
          (resolve (expandWithin compiler registry.declaredNames)
            ⟨.identifier name, note⟩) registry := by
    unfold compile
    rw [outcome_bind]
    simp only [outcome_get, andThen, expr]
    rfl
  rw [hCompile]
  rcases settles_resolve compiler registry.declaredNames
      (fun other source _ hSource => (hDeclared other source hSource).1)
      note with ⟨schema, hYields, hNone⟩ | ⟨error, hError, hFault⟩
  · exact ⟨iff_of_true ⟨schema, hYields⟩ hNone,
      fun hCycle => absurd hCycle hNone⟩
  · rcases hFault.exists_onCycle
        (fun other source hSource => (hDeclared other source hSource).2)
        hName with ⟨again, hReaches, hCycle, span, rfl⟩
    refine ⟨iff_of_false ?_ (not_not_intro ⟨again, hReaches, hCycle⟩),
      fun _ => ⟨again, _, hReaches, hCycle, hError, rfl, rfl⟩⟩
    rintro ⟨schema, hOk⟩
    rw [hError] at hOk
    cases hOk

/-
  Two names that stand for an object and an array of one another;
  the object has a string besides.
-/
def knot : Registry :=
  let refer (name : String) : Expr := ⟨.identifier name, {}⟩
  .of
    [("string", .compiled (.object (.single "type" (.string "string")))),
      ("A", .source
        ⟨.object
          [.property (.identifier "text") true (refer "string") {} {},
            .property (.identifier "more") false (refer "B") {} {}], {}⟩),
      ("B", .source ⟨.array [refer "A"], {}⟩)]

theorem knot_declared :
    ∀ other source, knot.get? other = some (.source source) →
      source.isSimple = true ∧
        ∀ next ∈ source.mentions, knot.contains next = true := by
  intro other source hSource
  simp only [knot, OrderedMap.get?_of, Pairs.get?_cons, Pairs.get?_nil]
    at hSource
  split at hSource
  · cases hSource
  · split at hSource
    · cases hSource
      decide
    · split at hSource
      · cases hSource
        decide
      · cases hSource

theorem knot_onCycle :
    knot.OnCycle "A" := by
  have hFirst : knot.Leads "A" "B" :=
    ⟨⟨_, rfl, by decide⟩, _, rfl⟩
  have hSecond : knot.Leads "B" "A" :=
    ⟨⟨_, rfl, by decide⟩, _, rfl⟩
  exact .tail (.single hFirst) hSecond

theorem compile_reference_iff_knot :
    (¬ ∃ schema,
      outcome (compile {} ⟨.identifier "B", {}⟩) knot =
        (.ok schema, knot)) ∧
      ∃ schema,
        outcome (compile {} ⟨.identifier "string", {}⟩) knot =
          (.ok schema, knot) := by
  have hKnot :=
    compile_reference_iff {} knot knot_declared "B" (by decide) {}
  have hString :=
    compile_reference_iff {} knot knot_declared "string" (by decide) {}
  refine ⟨fun hOk => hKnot.1.mp hOk ?_, hString.1.mpr ?_⟩
  · exact ⟨"A", .single ⟨⟨_, rfl, by decide⟩, _, rfl⟩, knot_onCycle⟩
  · apply not_leadsToCycle_of_not_declares
    rintro ⟨source, hSource⟩
    cases hSource

end Compile

end SchemaLang
