import SchemaLang.Proofs.Compile.Traversal
import SchemaLang.Proofs.OrderedMap

/-
  How expressions are compiled that denote a name or give one. A
  reference is resolved. An assignment, and a function with a single
  parameter, name what their value or body is compiled to; any other
  function is its body, and no other assignment is compiled.

  Main declarations:
    * `Compile.expr_eq_resolve` and `Compile.yields_reference`
    * `Compile.outcome_compile_assignment`
    * `Compile.outcome_compile_parameter`
    * `Compile.get?_of_register`
-/

namespace SchemaLang

------------------------------------------------------------
-- References
------------------------------------------------------------

/- Words that are joined with dashes are no range. -/
theorem Limited.of?_sub
    (left right : Expr)
    (note : Note) :
    of? ⟨.binary .sub left right, note⟩ = none := by
  rcases left with ⟨form, inner⟩
  cases form <;> rfl

namespace Compile

variable {compiler : Compiler}
variable {registry : Registry}
variable {name : String}

/- An expression that denotes a name is resolved. -/
theorem expr_eq_resolve
    {e : Expr}
    (hName : e.referenceName = .ok name)
    (expand : Expand) :
    expr compiler expand e = resolve expand e := by
  rcases e with ⟨form, note⟩
  cases form with
  | null => rw [expr]
  | identifier word => rw [expr]
  | member object property computed => rw [expr]
  | binary op left right =>
      rw [Expr.referenceName, Expr.dashedName] at hName
      split at hName
      · rename_i hDash
        subst hDash
        rw [expr_binary (by decide), Limited.of?_sub]
      · cases hName
  | _ => cases hName

/- A name that stands for a schema is compiled to it, under the name. -/
theorem yields_reference
    {e : Expr}
    {schema : Schema}
    (hName : e.referenceName = .ok name)
    (hGet : registry.get? name = some (.compiled schema))
    (expand : Expand) :
    Yields registry (expr compiler expand e) (titled name schema) := by
  rw [expr_eq_resolve hName]
  unfold Yields resolve
  rw [outcome_bind, outcome_check, hName, andThen, outcome_bind,
    outcome_get, andThen, hGet]
  rfl

------------------------------------------------------------
-- Expressions That Give A Name
------------------------------------------------------------

/- An assignment names what its value is compiled to. -/
theorem outcome_compile_assignment
    {target : Expr}
    (hName : target.referenceName = .ok name)
    (value : Expr)
    (note : Note) :
    outcome (compile compiler ⟨.assignment .assign target value, note⟩)
        registry =
      andThen (register name note.comments.preferred)
        (outcome
          (expr compiler (expandWithin compiler registry.declaredNames)
            value)
          registry) := by
  rw [outcome_compile, expr, outcome_bind, outcome_check, hName, andThen,
    outcome_bind]

/- A single parameter names what the body is compiled to. -/
theorem outcome_compile_parameter
    {param : Expr}
    (hName : param.referenceName = .ok name)
    (body : Expr)
    (note : Note) :
    outcome (compile compiler ⟨.arrow [param] body, note⟩) registry =
      andThen (register name note.comments.preferred)
        (outcome
          (expr compiler (expandWithin compiler registry.declaredNames)
            body)
          registry) := by
  rw [outcome_compile, expr, outcome_bind, outcome_check, hName, andThen,
    outcome_bind]

theorem outcome_register
    (name : String)
    (comments : List Comment)
    (schema : Schema)
    (registry : Registry) :
    outcome (register name comments schema) registry =
      (.ok ((titled name schema).describe comments),
        registry.define name ((titled name schema).describe comments)) :=
  rfl

/- What is named is what the computation ends with. -/
theorem get?_of_register
    {comments : List Comment}
    {ended : Except CompileError Schema × Registry}
    {schema : Schema}
    {after : Registry}
    (hRegister :
      andThen (register name comments) ended = (.ok schema, after)) :
    after.get? name = some (.compiled schema) := by
  rcases andThen_eq_ok hRegister with ⟨inner, between, -, hNamed⟩
  rw [outcome_register] at hNamed
  cases hNamed
  rw [Registry.define, OrderedMap.get?_insert, if_pos rfl]

------------------------------------------------------------
-- Expressions That Give None
------------------------------------------------------------

/- An assignment that is also an operation is refused. -/
theorem outcome_compile_compound
    (spelling : String)
    (target value : Expr)
    (note : Note) :
    outcome
        (compile compiler
          ⟨.assignment (.compound spelling) target value, note⟩)
        registry =
      (.error ⟨.assignOperator (.compound spelling), note.span⟩,
        registry) := by
  rw [outcome_compile, expr, outcome_fail]

/- A function without a single parameter is its body. -/
theorem outcome_compile_body
    {params : List Expr}
    (hParams : ∀ param, params ≠ [param])
    (body : Expr)
    (note : Note) :
    outcome (compile compiler ⟨.arrow params body, note⟩) registry =
      outcome (compile compiler body) registry := by
  rw [outcome_compile, outcome_compile, expr]
  exact hParams

end Compile

end SchemaLang
