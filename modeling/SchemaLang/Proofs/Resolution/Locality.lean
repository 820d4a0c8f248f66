import Mathlib.Data.List.Nodup
import Mathlib.Data.Set.Insert
import SchemaLang.Proofs.Resolution.Evolution

/-
  What compiling an expression depends on: the names that it denotes,
  those that the declared expressions of these names denote, and so
  on. Whatever else is named, and in whatever order, the expression
  is compiled alike, and all else stays as it is.

  Main declarations:
    * `Registry.AgreeOn`
    * `Registry.Encloses`
    * `Compile.lockstep_enclosed`
    * `Registry.declareAll`
    * `Compile.compile_local`
-/

namespace SchemaLang

------------------------------------------------------------
-- Footprints
------------------------------------------------------------

namespace Registry

/- Names of a set stand for the same in two registries. -/
def AgreeOn
    (footprint : Set String)
    (registry registry' : Registry) : Prop :=
  ∀ name ∈ footprint, registry'.get? name = registry.get? name

/-
  A set holds the names that an expression denotes, and those that
  the declared expressions of its names denote.
-/
structure Encloses
    (registry : Registry)
    (footprint : Set String)
    (e : Expr) : Prop where
  denoted : ∀ name ∈ e.names, name ∈ footprint
  declared :
    ∀ name ∈ footprint, ∀ source,
      registry.get? name = some (.source source) →
        ∀ next ∈ source.names, next ∈ footprint

variable {footprint : Set String}
variable {registry registry' : Registry}

theorem AgreeOn.define
    (hAgree : registry.AgreeOn footprint registry')
    (name : String)
    (schema : Schema) :
    (registry.define name schema).AgreeOn footprint
      (registry'.define name schema) := by
  intro other hOther
  unfold Registry.define
  rw [OrderedMap.get?_insert, OrderedMap.get?_insert,
    hAgree other hOther]

end Registry

------------------------------------------------------------
-- Two Runs
------------------------------------------------------------

namespace Compile

variable {footprint : Set String}
variable {start start' : Registry}

/-
  Two runs agree on a set of names, and have changed no other names
  so far.
-/
structure Parallel
    (footprint : Set String)
    (start start' before before' : Registry) : Prop where
  agree : before.AgreeOn footprint before'
  first : start.Evolves (· ∈ footprint) before
  second : start'.Evolves (· ∈ footprint) before'

/-
  An expression denotes only names of the set, and of these the same
  declared ones may be referred to in both runs.
-/
structure FitsBoth
    (footprint : Set String)
    (start : Registry)
    (names names' : List String)
    (e : Expr) : Prop where
  distinct : names.Nodup
  distinct' : names'.Nodup
  same :
    ∀ name ∈ footprint, start.Declares name →
      (name ∈ names ↔ name ∈ names')
  denoted : ∀ name ∈ e.names, name ∈ footprint

theorem lockstep_enclosed
    (footprint : Set String)
    (start start' : Registry)
    (hDeclared :
      ∀ name ∈ footprint, ∀ source,
        start.get? name = some (.source source) →
          ∀ next ∈ source.names, next ∈ footprint) :
    Lockstep (Parallel footprint start start') .all
      (FitsBoth footprint start) where
  denoted := by
    intro names names' e hFits name hName before before' hParallel
    have hFootprint := hFits.denoted name hName
    refine .inr ⟨hParallel.agree name hFootprint, ?_⟩
    intro source hSource
    have hStart := hParallel.first.source hSource
    refine ⟨hFits.same name hFootprint ⟨source, hStart⟩, ?_⟩
    constructor
    · exact hFits.distinct.erase name
    · exact hFits.distinct'.erase name
    · intro other hOther hOtherDeclared
      rw [hFits.distinct.mem_erase_iff, hFits.distinct'.mem_erase_iff,
        hFits.same other hOther hOtherDeclared]
    · exact hDeclared name hFootprint source hStart
  given := by
    intro names names' e hFits name hName schema before before' hParallel
    have hFootprint := hFits.denoted name (Expr.mem_names_of_mem_given hName)
    constructor
    · exact hParallel.agree.define name schema
    · exact hParallel.first.define hFootprint schema
    · exact hParallel.second.define hFootprint schema

/- Two runs from names that agree on what encloses an expression. -/
theorem parallel_compile
    {compiler : Compiler}
    (hSilent : compiler.IsSilent)
    (hAgree : start.AgreeOn footprint start')
    {e : Expr}
    (hEncloses : start.Encloses footprint e) :
    ∃ result after after',
      outcome (compile compiler e) start = (result, after) ∧
        outcome (compile compiler e) start' = (result, after') ∧
        Parallel footprint start start' after after' := by
  have hFits :
      FitsBoth footprint start start.declaredNames start'.declaredNames
        e := by
    constructor
    · exact OrderedMap.nodup_keys _
    · exact OrderedMap.nodup_keys _
    · rintro name hName ⟨source, hSource⟩
      have hOther : start'.Declares name :=
        ⟨source, (hAgree name hName).trans hSource⟩
      exact iff_of_true (mem_declaredNames ⟨source, hSource⟩)
        (mem_declaredNames hOther)
    · exact hEncloses.denoted
  have hLockstep :=
    lockstep_enclosed footprint start start' hEncloses.declared
  have hStart : Parallel footprint start start' start start' :=
    ⟨hAgree, .refl start, .refl start'⟩
  rw [outcome_compile, outcome_compile]
  rcases (hLockstep.alike hSilent hFits).compiled start start' hStart _ _
      rfl trivial with ⟨after', hSecond, hParallel⟩
  exact ⟨_, _, after', rfl, hSecond, hParallel⟩

end Compile

------------------------------------------------------------
-- Orders Of Declarations
------------------------------------------------------------

namespace Registry

/- Let names stand for expressions, one after the other. -/
def declareAll
    (registry : Registry)
    (declarations : OrderedMap Expr) : Registry :=
  declarations.toList.foldl
    (fun registry declaration =>
      registry.declare declaration.1 declaration.2)
    registry

/- To declare names is to insert their expressions. -/
theorem declareAll_eq_insertAll
    (registry : Registry)
    (declarations : OrderedMap Expr) :
    registry.declareAll declarations =
      registry.insertAll
        (declarations.mapValues Entry.source).toList := by
  unfold declareAll OrderedMap.insertAll
  rw [OrderedMap.toList_mapValues, List.foldl_map]
  rfl

/- A name stands for what it is declared as, if it is declared. -/
theorem get?_declareAll
    (registry : Registry)
    (declarations : OrderedMap Expr)
    (name : String) :
    (registry.declareAll declarations).get? name =
      ((declarations.get? name).map Entry.source).or
        (registry.get? name) := by
  rw [declareAll_eq_insertAll, OrderedMap.get?_insertAll,
    OrderedMap.last?_toList, OrderedMap.get?_mapValues]

/- In whichever order names are declared, they stand for the same. -/
theorem agreeOn_declareAll
    (registry : Registry)
    {declarations declarations' : OrderedMap Expr}
    (hPerm : declarations.toList.Perm declarations'.toList)
    (footprint : Set String) :
    (registry.declareAll declarations).AgreeOn footprint
      (registry.declareAll declarations') := by
  intro name _
  have hSame : declarations'.get? name = declarations.get? name := by
    ext source
    rw [OrderedMap.get?_eq_some_iff, OrderedMap.get?_eq_some_iff,
      hPerm.mem_iff]
  rw [get?_declareAll, get?_declareAll, hSame]

end Registry

------------------------------------------------------------
-- Locality
------------------------------------------------------------

namespace Compile

/-
  Let a set of names enclose an expression, and let two registries
  agree on it. Then the expression has the same result in both, they
  agree again, and all other names stand for what they stood for. So
  it does not matter in which order names are declared.
-/
theorem compile_local
    (version : Version) :
    (∀ (footprint : Set String) (registry registry' : Registry)
      (e : Expr),
      registry.AgreeOn footprint registry' →
        registry.Encloses footprint e →
          let ended :=
            outcome (compile { version := version } e) registry
          let ended' :=
            outcome (compile { version := version } e) registry'
          ended.1 = ended'.1 ∧
            ended.2.AgreeOn footprint ended'.2 ∧
            ∀ name ∉ footprint,
              ended.2.get? name = registry.get? name ∧
                ended'.2.get? name = registry'.get? name) ∧
      ∀ (registry : Registry)
        (declarations declarations' : OrderedMap Expr) (e : Expr),
        declarations.toList.Perm declarations'.toList →
          let ended :=
            outcome (compile { version := version } e)
              (registry.declareAll declarations)
          let ended' :=
            outcome (compile { version := version } e)
              (registry.declareAll declarations')
          ended.1 = ended'.1 ∧
            ∀ name, ended.2.get? name = ended'.2.get? name := by
  have hSilent := Compiler.isSilent_builtin version
  constructor
  · intro footprint registry registry' e hAgree hEncloses
    rcases parallel_compile hSilent hAgree hEncloses with
      ⟨result, after, after', hFirst, hSecond, hAfter⟩
    rw [hFirst, hSecond]
    refine ⟨rfl, hAfter.agree, fun name hName => ⟨?_, ?_⟩⟩
    · exact (hAfter.first.entries name).resolve_right
        fun hChanged => hName hChanged.2
    · exact (hAfter.second.entries name).resolve_right
        fun hChanged => hName hChanged.2
  · intro registry declarations declarations' e hPerm
    have hAgree := Registry.agreeOn_declareAll registry hPerm Set.univ
    have hEncloses :
        (registry.declareAll declarations).Encloses Set.univ e :=
      ⟨fun _ _ => trivial, fun _ _ _ _ _ _ => trivial⟩
    rcases parallel_compile hSilent hAgree hEncloses with
      ⟨result, after, after', hFirst, hSecond, hAfter⟩
    rw [hFirst, hSecond]
    exact ⟨rfl, fun name => (hAfter.agree name trivial).symm⟩

/- `A = B` and `B = int`, each on its own. -/
def chained : OrderedMap Expr :=
  .of [("A", ⟨.identifier "B", {}⟩), ("B", ⟨.identifier "int", {}⟩)]

/- The same, the other way round. -/
def unchained : OrderedMap Expr :=
  .of [("B", ⟨.identifier "int", {}⟩), ("A", ⟨.identifier "B", {}⟩)]

/-
  With `chained` declared, the names that `A` leads to enclose it. A
  registry that has them in another order, and a name in front that
  refers to itself, compiles `A` alike and leaves that name declared.
  Neither does it matter which of `A` and `B` is declared first.
-/
theorem compile_local_chained :
    let registry := Registry.initial.declareAll chained
    let circular : Expr := ⟨.identifier "C", {}⟩
    let registry' : Registry :=
      (Registry.initial.declareAll unchained).insertFirst "C"
        (.source circular)
    let refer : Expr := ⟨.identifier "A", {}⟩
    let ended := outcome (compile {} refer) registry
    let ended' := outcome (compile {} refer) registry'
    (ended.1 = ended'.1 ∧
        ended.2.get? "B" = ended'.2.get? "B" ∧
        ended'.2.get? "C" = some (.source circular)) ∧
      ended.1 =
        (outcome (compile {} refer)
          (Registry.initial.declareAll unchained)).1 := by
  intro registry circular registry' refer ended ended'
  let footprint : Set String := {"A", "B", "int"}
  have hLocal := compile_local .draft07
  have hSwapped : chained.toList.Perm unchained.toList :=
    List.Perm.swap _ _ _
  have hEncloses : registry.Encloses footprint refer := by
    constructor
    · simp [refer, footprint]
    · rintro name (rfl | rfl | rfl) source hSource
      · cases hSource
        simp [footprint]
      · cases hSource
        simp [footprint]
      · cases hSource
  have hAgree : registry.AgreeOn footprint registry' := by
    intro name hName
    have hOther : "C" ≠ name := by
      rcases hName with rfl | rfl | rfl <;> decide
    rw [OrderedMap.get?_insertFirst, if_neg hOther]
    exact Registry.agreeOn_declareAll Registry.initial hSwapped footprint
      name hName
  rcases hLocal.1 footprint registry registry' refer hAgree hEncloses with
    ⟨hResult, hAfter, hOutside⟩
  refine ⟨⟨hResult, ?_, ?_⟩, ?_⟩
  · exact (hAfter "B" (by simp [footprint])).symm
  · rw [(hOutside "C" (by simp [footprint])).2,
      OrderedMap.get?_insertFirst, if_pos rfl]
  · exact (hLocal.2 Registry.initial chained unchained refer
      hSwapped).1

end Compile

end SchemaLang
