import SchemaLang.Compile.Basic

/-
  This file compiles expressions that refer to declared names. A
  declared name is compiled where it is referred to, and while it
  is, it may not be referred to again.

  Key definitions include:
    * `Compile.expandWithin`
    * `Compile.compile`
    * `Compile.resolved`
    * `Compile.converted`
-/

namespace SchemaLang.Compile

/-
  Compile what a declared name stands for, if it is among the names
  that may still be referred to. Within it, the name itself no
  longer is.
-/
def expandWithin
    (compiler : Compiler)
    (names : List String) : Expand :=
  fun name span source =>
    if h : name ∈ names then
      have : (names.erase name).length < names.length := by
        have := List.length_pos_of_mem h
        rw [List.length_erase_of_mem h]
        omega
      expr compiler (expandWithin compiler (names.erase name)) source
    else fail (.circular name) span
termination_by names.length

/- How declared names are compiled when none is being compiled. -/
def expandDeclared
    (compiler : Compiler)
    (registry : Registry) : Expand :=
  expandWithin compiler registry.declaredNames

/- Compile an expression. -/
def compile
    (compiler : Compiler)
    (e : Expr) : Compile Schema := do
  expr compiler (expandDeclared compiler (← get)) e

/- The schema that a reference stands for. -/
def resolved
    (compiler : Compiler)
    (e : Expr) : Compile Schema := do
  resolve (expandDeclared compiler (← get)) e

/- Take an expression as it is written; names are resolved. -/
def converted
    (compiler : Compiler)
    (e : Expr) : Compile Schema := do
  literal compiler (expandDeclared compiler (← get)) e

end SchemaLang.Compile
