import SchemaLang.Operation.Extension
import SchemaLang.Registry.Builtin
import SchemaLang.Version

/-
  This file defines what the compiler is given besides expressions
  and names, and the computations that it runs.

  Key definitions include:
    * `Compiler`
    * `Compiler.extended`
    * `Compile`
-/

namespace SchemaLang

/- The draft and the tables of operations. -/
structure Compiler where
  version : Version := .draft07
  methods : OrderedMap Method := Method.builtins
  functions : OrderedMap Function := .empty
  directives : OrderedMap Method := Method.directives

namespace Compiler

/- The compiler with the further operations. -/
def extended
    (compiler : Compiler) : Compiler :=
  { compiler with
    methods := compiler.methods.insertAll Extension.methods.toList
    functions := compiler.functions.insertAll Extension.functions.toList
    directives := compiler.directives.insertAll Extension.directives.toList }

end Compiler

/-
  A computation that may name schemas and may fail. What it has
  named stays named when it fails.
-/
abbrev Compile := ExceptT CompileError (StateM Registry)

namespace Compile

/- Fail for a cause at a place. -/
def fail {α : Type}
    (cause : Cause)
    (span : Span) : Compile α :=
  throw ⟨cause, span⟩

/- A check or a pure step. -/
def check {α : Type}
    (result : Except CompileError α) : Compile α :=
  match result with
  | .ok value => pure value
  | .error error => throw error

/- Let a name stand for a schema. -/
def define
    (name : String)
    (schema : Schema) : Compile Unit :=
  modify fun registry => registry.define name schema

end Compile

end SchemaLang
