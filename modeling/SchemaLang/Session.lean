import SchemaLang.Compile.Declared
import SchemaLang.Document.Text
import SchemaLang.Schema.Document
import SchemaLang.Source.Reader

/-
  This file defines sessions: a compiler and a reader, with the
  names that have been given so far. Names given by one text are
  known to the next.

  Key definitions include:
    * `Session`
    * `Session.compileTree`
    * `Session.compileText`
    * `Session.declareTree`
    * `Session.declareText`
    * `Session.summary`
-/

namespace SchemaLang

/- A compiler, the names given so far and a reader. -/
structure Session where
  compiler : Compiler := {}
  registry : Registry := Registry.initial
  reader : Reader := Reader.standard

/- Why a text does not become a document. -/
inductive Failure
  | read (error : ReadError)
  | compile (error : CompileError)

namespace Session

------------------------------------------------------------
-- Compiling
------------------------------------------------------------

/- Run a computation; what it names stays named if it fails. -/
def run {α : Type}
    (session : Session)
    (computation : Compile α) : Except CompileError α × Session :=
  let (result, registry) := (ExceptT.run computation).run session.registry
  (result, { session with registry := registry })

/-
  Compile an expression and describe the result by its comments. If
  it fails, the names are what they were before.
-/
def compileTree
    (session : Session)
    (e : Expr) : Except CompileError Schema × Session :=
  match session.run (Compile.compile session.compiler e) with
  | (.ok schema, after) => (.ok (schema.describe e.comments.preferred), after)
  | (.error error, _) => (.error error, session)

/- Compile an expression into a document. -/
def compileDocument
    (session : Session)
    (e : Expr) : Except CompileError Document × Session :=
  match session.compileTree e with
  | (.ok schema, after) => (schema.toDocument, after)
  | (.error error, after) => (.error error, after)

/- Read a text and compile it into a document. -/
def compileText
    (session : Session)
    (placement : Placement)
    (text : String) : Except Failure Document × Session :=
  match session.reader.read placement text with
  | .error error => (.error (.read error), session)
  | .ok e =>
    match session.compileDocument e with
    | (.ok document, after) => (.ok document, after)
    | (.error error, after) => (.error (.compile error), after)

------------------------------------------------------------
-- Declaring
------------------------------------------------------------

/-
  The target and the value of an expression that gives a name: an
  assignment, a function with a parameter, or a function without
  one whose body is an assignment.
-/
def naming? : Expr → Option (Expr × Expr)
  | ⟨.assignment _ target value, _⟩ => some (target, value)
  | ⟨.arrow (param :: _) body, _⟩ => some (param, body)
  | ⟨.arrow [] ⟨.assignment _ target value, _⟩, _⟩ => some (target, value)
  | _ => none

/- Let the name that an expression gives stand for its value. -/
def declareTree
    (session : Session)
    (e : Expr) : Except CompileError Session :=
  match naming? e with
  | none => .ok session
  | some (target, value) => do
    let name ← target.referenceName
    pure { session with registry := session.registry.declare name value }

/- Read a text and declare the name that it gives. -/
def declareText
    (session : Session)
    (text : String) : Except Failure (Expr × Session) :=
  match session.reader.read {} text with
  | .error error => .error (.read error)
  | .ok e =>
    match session.declareTree e with
    | .ok after => .ok (e, after)
    | .error error => .error (.compile error)

------------------------------------------------------------
-- Summary
------------------------------------------------------------

/- The names in a list, quoted. -/
def nameList
    (names : List String) : String :=
  "[" ++ String.intercalate ", " (names.map Quoted.quote) ++ "]"

/- The names of a table in alphabetical order. -/
def sortedKeys {α : Type}
    (map : OrderedMap α) : List String :=
  map.keys.mergeSort fun a b => decide (a ≤ b)

/- The long name of a draft. -/
def draftName
    (version : Version) : String :=
  "Draft" ++ version.text

/- One line on all that a session knows. -/
def summary
    (session : Session) : String :=
  let compiler := session.compiler
  "Config \x7b schemas: " ++ nameList session.registry.keys ++
    ", methods: " ++ nameList (sortedKeys compiler.methods) ++
    ", functions: " ++ nameList (sortedKeys compiler.functions) ++
    ", object_options: " ++ nameList (sortedKeys compiler.directives) ++
    ", schema_version: " ++ draftName compiler.version ++ " \x7d"

/- The language that texts are read in if no reader is given. -/
def language : String :=
  Reader.standard.language

/- The endings of the names of files in that language. -/
def extensions : List String :=
  Reader.standard.extensions

end Session

end SchemaLang
