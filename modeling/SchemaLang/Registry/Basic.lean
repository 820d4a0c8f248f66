import SchemaLang.Expr.Basic
import SchemaLang.Schema.Basic

/-
  This file defines the registry of named schemas. A name stands
  for an expression that is compiled where it is referred to, or
  for a schema that has been compiled.

  Key definitions include:
    * `Registry`
    * `Registry.Entry`
    * `Registry.declare`
    * `Registry.define`
    * `Registry.declaredNames`
-/

namespace SchemaLang

/- What a name stands for. -/
inductive Registry.Entry
  | source (expr : Expr)
  | compiled (schema : Schema)

/- Names in the order in which they were first given. -/
abbrev Registry := OrderedMap Registry.Entry

namespace Registry

/- Let a name stand for an expression. -/
def declare
    (registry : Registry)
    (name : String)
    (expr : Expr) : Registry :=
  registry.insert name (.source expr)

/- Let a name stand for a schema. -/
def define
    (registry : Registry)
    (name : String)
    (schema : Schema) : Registry :=
  registry.insert name (.compiled schema)

/- Whether an entry is still to be compiled. -/
def Entry.isSource : Entry → Bool
  | source _ => true
  | compiled _ => false

/- The names that stand for expressions. -/
def declaredNames
    (registry : Registry) : List String :=
  (registry.filter fun entry => entry.2.isSource).keys

end Registry

end SchemaLang
