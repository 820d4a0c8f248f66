import SchemaLang.Proofs.Compile.Outcome
import SchemaLang.Proofs.Core.Enumeration

/-
  Expressions whose schemas accept what the expressions mean: the
  names and the constants of the core.

  Main declarations:
    * `Validator.Denotes`
    * `Compile.Faithful`
    * `Compile.resolve_of_isBuiltinName`
    * `Compile.faithful_identifier`
    * `Compile.faithful_number`
-/

namespace SchemaLang

/- A schema that is a map accepts exactly the documents meant. -/
def Validator.Denotes
    (validator : Validator)
    (schema : Schema)
    (means : Document → Prop) : Prop :=
  schema.isMap = true ∧
    ∀ v, validator.accepts schema v = true ↔ means v

namespace Compile

/-
  An expression is compiled into a schema that accepts what the
  expression means, and no name is given.
-/
def Faithful
    (compiler : Compiler)
    (expand : Expand)
    (validator : Validator)
    (e : Expr) : Prop :=
  ∃ schema,
    Yields Registry.initial (expr compiler expand e) schema ∧
      validator.Denotes schema (e.Means validator)

variable {compiler : Compiler}
variable {expand : Expand}
variable {validator : Validator}

------------------------------------------------------------
-- Names
------------------------------------------------------------

/- The names given from the start stand for schemas. -/
theorem get?_initial
    (name : String) :
    Registry.initial.get? name =
      (Registry.builtins.get? name).map .compiled :=
  OrderedMap.get?_mapValues _ Registry.builtins name

theorem isMap_of_mem_builtins :
    ∀ entry ∈ Registry.builtins.toList, entry.2.isMap = true := by
  decide

/- The name of a schema given from the start resolves to it. -/
theorem resolve_of_isBuiltinName
    {e : Expr}
    (hName : e.isBuiltinName = true) :
    ∃ schema,
      Yields Registry.initial (resolve expand e) schema ∧
        validator.Denotes schema (e.IsNamed validator) := by
  unfold Expr.isBuiltinName at hName
  split at hName
  · rename_i name hReference
    have hKnown := hName
    unfold Registry.isBuiltin OrderedMap.contains at hKnown
    rcases Option.isSome_iff_exists.mp hKnown with ⟨schema, hSchema⟩
    refine ⟨schema, ?_, ?_, ?_⟩
    · unfold resolve
      refine Yields.bind (Yields.check hReference) ?_
      refine Yields.bind (a := Registry.initial) rfl ?_
      rw [get?_initial, hSchema]
      simp only [Option.map_some, titled, hName, if_true]
      exact Yields.pure schema
    · exact isMap_of_mem_builtins _ (OrderedMap.mem_of_get? hSchema)
    · intro v
      constructor
      · intro hAccepts
        exact ⟨name, schema, hReference, hSchema, hAccepts⟩
      · rintro ⟨other, found, hOther, hFound, hAccepts⟩
        rw [hReference] at hOther
        cases hOther
        rw [hSchema] at hFound
        cases hFound
        exact hAccepts
  · cases hName

theorem faithful_identifier
    {name : String}
    {note : Note}
    (hName : Expr.isBuiltinName ⟨.identifier name, note⟩ = true) :
    Faithful compiler expand validator ⟨.identifier name, note⟩ := by
  unfold Faithful
  rw [expr, Expr.Means]
  exact resolve_of_isBuiltinName hName

theorem faithful_null
    (note : Note) :
    Faithful compiler expand validator ⟨.null, note⟩ := by
  unfold Faithful
  rw [expr, Expr.Means]
  exact resolve_of_isBuiltinName rfl

/- Only comparisons are ranges. -/
theorem limited_of?_eq_none
    {op : BinaryOp}
    (hOp : op.isRelational = false)
    (left right : Expr)
    (note : Note) :
    Limited.of? ⟨.binary op left right, note⟩ = none := by
  have hLess : Limited.isLess op = false := by
    cases op <;> simp_all [Limited.isLess, BinaryOp.isRelational]
  have hBetween :
      Limited.between? ⟨.binary op left right, note⟩ = none := by
    unfold Limited.between?
    split
    · rename_i hForm
      cases hForm
      simp [hLess]
    · rfl
  simp [Limited.of?, Limited.bound?, hBetween, hOp]

/- Words joined with dashes are no range and no case. -/
theorem faithful_binary
    {op : BinaryOp}
    {left right : Expr}
    {note : Note}
    (hName : Expr.isBuiltinName ⟨.binary op left right, note⟩ = true) :
    Faithful compiler expand validator ⟨.binary op left right, note⟩ := by
  have hOp : op = .sub := by
    by_contra hOther
    simp [Expr.isBuiltinName, Expr.referenceName, Expr.dashedName,
      hOther] at hName
  subst hOp
  have hRange :
      Limited.of? ⟨.binary .sub left right, note⟩ = none :=
    limited_of?_eq_none rfl left right note
  unfold Faithful
  rw [expr, Expr.Means]
  · split
    · rename_i hSome
      rw [hRange] at hSome
      cases hSome
    · exact resolve_of_isBuiltinName hName
  · simp

------------------------------------------------------------
-- Constants
------------------------------------------------------------

/- The constant schema of a value denotes equality with it. -/
theorem denotes_constant
    {value : Schema}
    {means : Document → Prop}
    (hEqual : ∀ v, Sense.isEqual value v = true ↔ means v) :
    validator.Denotes (constant value) means := by
  refine ⟨rfl, fun v => ?_⟩
  rw [constant, Validator.accepts_const]
  exact hEqual v

theorem faithful_string
    (value : String)
    (note : Note) :
    Faithful compiler expand validator ⟨.string value, note⟩ := by
  unfold Faithful
  rw [expr, Expr.Means]
  exact ⟨_, Yields.pure _,
    denotes_constant (Sense.isEqual_string value)⟩

theorem faithful_boolean
    (value : Bool)
    (note : Note) :
    Faithful compiler expand validator ⟨.boolean value, note⟩ := by
  unfold Faithful
  rw [expr, Expr.Means]
  exact ⟨_, Yields.pure _,
    denotes_constant (Sense.isEqual_bool value)⟩

theorem faithful_number
    {value : Binary64}
    (hFinite : value.isFinite = true)
    (note : Note) :
    Faithful compiler expand validator ⟨.number value, note⟩ := by
  unfold Faithful
  simp only [expr, Expr.number?, hFinite, if_true, Expr.Means]
  exact ⟨_, Yields.pure _,
    denotes_constant (Sense.isEqual_ofBinary64 hFinite)⟩

theorem faithful_negative
    {value : Binary64}
    (hFinite : value.isFinite = true)
    (inner note : Note) :
    Faithful compiler expand validator
      ⟨.unary .neg ⟨.number value, inner⟩, note⟩ := by
  have hNegate : value.negate.isFinite = true := hFinite
  unfold Faithful
  simp only [expr, Expr.number?, hFinite, if_true, Expr.Means,
    ← Binary64.value_negate]
  exact ⟨_, Yields.pure _,
    denotes_constant (Sense.isEqual_ofBinary64 hNegate)⟩

end Compile

end SchemaLang
