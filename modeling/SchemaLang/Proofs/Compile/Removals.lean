import SchemaLang.Proofs.Compile.Runs
import SchemaLang.Proofs.Compile.Upholding
import SchemaLang.Proofs.Resolution.Evolution
import SchemaLang.Proofs.Schema.Properties
import SchemaLang.Proofs.Schema.Removal

/-
  Removals come only from what is taken as it is written. An expression
  that has nothing of the kind is compiled to a schema that has a
  document, and so is every name that it gives.

  Main declarations:
    * `Expr.takesWritten` and `Expr.isCompiled`
    * `Registry.IsRemovalFree`
    * `Compile.removalFree_of_isCompiled`
-/

namespace SchemaLang

------------------------------------------------------------
-- Expressions That Take Nothing As It Is Written
------------------------------------------------------------

/- The methods that take values as they are written. -/
def Method.takers : List String :=
  ["set", "not", "dependencies", "dependentRequired"]

/- Whether a member runs a directive that takes its value as written. -/
def Member.takesWritten : Member → Bool
  | property key _ _ _ _ =>
    key.word? == some "$dependencies" ||
      key.word? == some "$dependentRequired"
  | spread _ => false

namespace Expr

/- Whether an expression itself takes what is within it as written. -/
def takesWritten : Expr → Bool
  | ⟨.unary .not ⟨.unary .not ⟨.object _, _⟩, _⟩, _⟩ => true
  | ⟨.object members, _⟩ => members.any Member.takesWritten
  | ⟨.call ⟨.member _ property false, _⟩ _, _⟩ =>
    property.identifier?.any Method.takers.contains
  | _ => false

/- Whether nothing within an expression is taken as it is written. -/
def isCompiled
    (e : Expr) : Bool :=
  e.parts.all fun part => !part.takesWritten

end Expr

namespace Registry

/- What a name stands for has no removal, and will have none. -/
def Entry.isRemovalFree : Entry → Bool
  | compiled schema => !schema.holdsRemoval
  | source e => e.isCompiled

/- So it is for all names. -/
def IsRemovalFree
    (registry : Registry) : Prop :=
  ∀ name entry, registry.get? name = some entry →
    entry.isRemovalFree = true

end Registry

------------------------------------------------------------
-- The Standard Of Schemas Without Removals
------------------------------------------------------------

namespace Standard

/- Schemas without removals. -/
def removalFree : Standard :=
  { removals := false }

mutual

theorem sound_removalFree
    (schema : Schema) :
    removalFree.Sound schema ↔ schema.holdsRemoval = false := by
  cases schema with
  | array items =>
      rw [Sound, Schema.holdsRemoval, soundItems_removalFree items]
  | object fields =>
      rw [Sound, Schema.holdsRemoval, soundRow_removalFree fields.row]
  | removal span => simp [Sound, Schema.holdsRemoval, removalFree]
  | _ => simp [Sound, Schema.holdsRemoval]

theorem soundItems_removalFree
    (items : List Schema) :
    removalFree.SoundItems items ↔
      Schema.itemsHoldRemoval items = false := by
  cases items with
  | nil => simp [SoundItems, Schema.itemsHoldRemoval]
  | cons item rest =>
      rw [SoundItems, Schema.itemsHoldRemoval, Bool.or_eq_false_iff,
        sound_removalFree item, soundItems_removalFree rest]

theorem soundRow_removalFree
    {names : List String}
    (row : OrderedMap.Row Schema names) :
    removalFree.SoundRow row ↔ Schema.rowHoldsRemoval row = false := by
  cases row with
  | nil => simp [SoundRow, Schema.rowHoldsRemoval]
  | cons key value rest hNew =>
      rw [SoundRow, Schema.rowHoldsRemoval, Bool.or_eq_false_iff,
        sound_removalFree value, soundRow_removalFree rest]

end

theorem met_removalFree
    (schema : Schema) :
    removalFree.Met schema ↔ schema.holdsRemoval = false := by
  rw [← sound_removalFree]
  exact ⟨Met.sound, fun hSound => hSound.met rfl rfl⟩

theorem keeps_removalFree
    (registry : Registry) :
    registry.Keeps removalFree (fun e => e.isCompiled = true) ↔
      registry.IsRemovalFree := by
  have hEntry :
      ∀ entry : Registry.Entry,
        entry.Keeps removalFree (fun e => e.isCompiled = true) ↔
          entry.isRemovalFree = true := by
    intro entry
    cases entry with
    | compiled schema =>
        rw [Registry.Entry.Keeps, met_removalFree,
          Registry.Entry.isRemovalFree, Bool.not_eq_true']
    | source source => exact Iff.rfl
  simp only [Registry.Keeps, Registry.IsRemovalFree, hEntry]

/- Nothing that an expression itself does is against the standard. -/
theorem admits_removalFree
    (version : Version)
    {e : Expr}
    (hCompiled : e.takesWritten = false) :
    removalFree.Admits { version := version } e := by
  have hTakers :
      ∀ entry ∈ Method.builtins.toList, entry.1 ∉ Method.takers →
        entry.2.demand.isWritten = false := by
    decide
  have hDirectives :
      ∀ entry ∈ Method.shared.toList, "$" ++ entry.1 ≠ "$dependencies" →
        "$" ++ entry.1 ≠ "$dependentRequired" →
          entry.2.demand.isWritten = false := by
    decide
  unfold Admits
  split
  · cases hCompiled
  · rename_i members note
    intro member hMember
    rw [Expr.takesWritten, List.any_eq_false] at hCompiled
    have hMember := hCompiled member hMember
    cases member with
    | spread e => rfl
    | property key computed value span comments =>
        intro name entry hWord hDirective
        rcases Compile.mem_of_directive? hDirective with ⟨hEntry, rfl⟩
        simp only [Member.takesWritten, hWord, Bool.or_eq_true,
          beq_iff_eq, Option.some.injEq, not_or] at hMember
        refine upholds_shared entry hEntry fun hWritten => ?_
        rw [hDirectives entry hEntry hMember.1 hMember.2] at hWritten
        cases hWritten
  · rfl
  · rename_i object property middle arguments note
    intro name method hName hGet
    rw [Expr.takesWritten, hName] at hCompiled
    have hEntry := OrderedMap.mem_of_get? hGet
    refine upholds_builtins rfl rfl (name, method) hEntry fun hWritten => ?_
    have hTaker : name ∉ Method.takers := by
      simpa using hCompiled
    rw [hTakers (name, method) hEntry hTaker] at hWritten
    cases hWritten
  · trivial

end Standard

namespace Compile

/- Whichever names may be referred to, no removal is left. -/
theorem removalFree_expr
    (version : Version)
    (names : List String)
    {e : Expr}
    (hCompiled : e.isCompiled = true)
    {registry : Registry}
    (hRegistry : registry.IsRemovalFree) :
    let ended :=
      outcome
        (expr { version := version }
          (expandWithin { version := version } names) e)
        registry
    ended.2.IsRemovalFree ∧
      ∀ schema, ended.1 = .ok schema →
        schema.holdsRemoval = false ∧
          ∃ document, schema.toDocument = .ok document := by
  have hAdmitted :
      ∀ e : Expr, e.isCompiled = true →
        ∀ part ∈ e.parts,
          Standard.removalFree.Admits { version := version } part := by
    intro e hCompiled part hPart
    apply Standard.admits_removalFree
    simpa using List.all_eq_true.mp hCompiled part hPart
  have hUpheld :=
    upheld_of_keeps hAdmitted names hCompiled
  have hEnds :=
    hUpheld.compiled registry ((Standard.keeps_removalFree registry).mpr
      hRegistry)
  refine ⟨(Standard.keeps_removalFree _).mp hEnds.1, ?_⟩
  intro schema hOk
  have hFree := (Standard.met_removalFree schema).mp (hEnds.2 schema hOk)
  refine ⟨hFree, ?_⟩
  have hDocument := schema.isOk_toDocument
  rw [hFree] at hDocument
  cases hResult : schema.toDocument with
  | ok document => exact ⟨document, rfl⟩
  | error error =>
      rw [hResult] at hDocument
      cases hDocument

/-
  If nothing is taken as it is written, neither in an expression nor in
  what is declared, then no removal is left in what is compiled, nor in
  the names that are given behind it; so there is a document. This is
  so on the machine as well, whatever it is resolving.
-/
theorem removalFree_of_isCompiled
    (version : Version)
    (e : Expr)
    (hCompiled : e.isCompiled = true) :
    (∀ registry result after,
      registry.IsRemovalFree →
        outcome (compile { version := version } e) registry =
            (result, after) →
          after.IsRemovalFree ∧
            ∀ schema, result = .ok schema →
              schema.holdsRemoval = false ∧
                ∃ document, schema.toDocument = .ok document) ∧
      ∀ machine result after depth,
        machine.registry.IsRemovalFree →
          machine.currentScope.depth e ≤ depth →
            Machine.outcome
                ((Machine.atDepth { version := version } depth).compile e)
                machine =
              some (result, after) →
            after.registry.IsRemovalFree ∧
              ∀ schema, result = .ok schema →
                schema.holdsRemoval = false ∧
                  ∃ document, schema.toDocument = .ok document := by
  constructor
  · intro registry result after hRegistry hEnds
    rw [outcome_compile] at hEnds
    have hFree :=
      removalFree_expr version registry.declaredNames hCompiled hRegistry
    dsimp only at hFree
    rw [hEnds] at hFree
    exact hFree
  · intro machine result after depth hRegistry hDepth hEnds
    rw [machine_outcome_eq _ machine hDepth] at hEnds
    have hFree :=
      removalFree_expr version machine.free hCompiled hRegistry
    cases hEnds
    exact hFree

/- `{ ...Base, x: undefined, z: { w: undefined } }`. -/
def thinnedObject : Expr :=
  let gone : Expr := ⟨.identifier "undefined", {}⟩
  ⟨.object
    [.spread ⟨.spread ⟨.identifier "Base", {}⟩, {}⟩,
      .property (.identifier "x") false gone {} {},
      .property (.identifier "z") false
        ⟨.object [.property (.identifier "w") false gone {} {}], {}⟩ {}
        {}],
    {}⟩

/- `Base` is an object with `x` and `y`; `Later` is declared only. -/
def thinnedRegistry : Registry :=
  let base : Schema :=
    .object (Fields.ofProperties ["x", "y"]
      (.of
        [("x", Registry.typed "integer" []),
          ("y", Registry.typed "string" [])]))
  (Registry.initial.define "Base" base).declare "Later" thinnedObject

theorem outcome_thinnedObject :
    ∃ schema,
      outcome (compile {} thinnedObject) thinnedRegistry =
        (.ok schema, thinnedRegistry) := by
  rw [outcome_compile]
  simp only [thinnedObject, expr, memberList, propertyInto, spreadInto,
    run, resolve, Key.propertyName, Expr.referenceName]
  exact ⟨_, rfl⟩

/- Two members take properties away, and no removal is left. -/
theorem removalFree_thinnedObject :
    thinnedObject.isCompiled = true ∧ thinnedRegistry.IsRemovalFree ∧
      ∃ schema document,
        outcome (compile {} thinnedObject) thinnedRegistry =
            (.ok schema, thinnedRegistry) ∧
          schema.holdsRemoval = false ∧
          schema.toDocument = .ok document := by
  have hRegistry : thinnedRegistry.IsRemovalFree := by
    intro name entry hGet
    have hAll :
        ∀ entry ∈ thinnedRegistry.toList, entry.2.isRemovalFree = true := by
      decide
    exact hAll (name, entry) (OrderedMap.mem_of_get? hGet)
  rcases outcome_thinnedObject with ⟨schema, hEnds⟩
  rcases (removalFree_of_isCompiled .draft07 thinnedObject (by decide)).1
      thinnedRegistry _ _ hRegistry hEnds with ⟨-, hFree⟩
  rcases hFree schema rfl with ⟨hSchema, document, hDocument⟩
  exact ⟨by decide, hRegistry, schema, document, hEnds, hSchema,
    hDocument⟩

end Compile

end SchemaLang
