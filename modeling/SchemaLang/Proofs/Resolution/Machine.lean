import Mathlib.Tactic.Common
import SchemaLang.Compile.Declared

/-
  The compiler as a machine whose recursion has no measure. The
  machine keeps the names that are being resolved on a stack. A name
  is pushed before its expression is compiled and popped behind it,
  and a case compiles an object that is built for it, larger than
  the case itself.

  Two calls are nested in one another: compiling an expression, and
  taking one as it is written. What the nested calls do is an
  argument of each function, and the machine ties the knot up to a
  depth. A call that is nested deeper does not end.

  Main declarations:
    * `Machine`
    * `Machine.Run` and `Machine.outcome`
    * `Machine.Nested`
    * `Machine.expr` and `Machine.literal`
    * `Machine.atDepth`
-/

namespace SchemaLang

/- The names given so far, and those that are being resolved. -/
structure Machine where
  registry : Registry
  resolving : List String

namespace Machine

------------------------------------------------------------
-- Runs
------------------------------------------------------------

/- A run that may fail, and may not end within the depth. -/
abbrev Run := ExceptT CompileError (StateT Machine Option)

/- How a run ends, if it does. -/
def outcome {α : Type}
    (run : Run α)
    (machine : Machine) : Option (Except CompileError α × Machine) :=
  (ExceptT.run run).run machine

/- The depth does not suffice. -/
def cut {α : Type} : Run α :=
  ExceptT.mk fun _ => none

/- Fail for a cause at a place. -/
def fail {α : Type}
    (cause : Cause)
    (span : Span) : Run α :=
  throw ⟨cause, span⟩

/- A check or a pure step. -/
def check {α : Type}
    (result : Except CompileError α) : Run α :=
  match result with
  | .ok value => pure value
  | .error error => throw error

/- Let a name stand for a schema. -/
def define
    (name : String)
    (schema : Schema) : Run Unit :=
  modify fun machine =>
    { machine with registry := machine.registry.define name schema }

/- Name a schema, and describe it by comments. -/
def register
    (name : String)
    (comments : List Comment)
    (schema : Schema) : Run Schema := do
  let schema := (Compile.titled name schema).describe comments
  define name schema
  pure schema

/- A name is being resolved from now on. -/
def push
    (name : String) : Run Unit :=
  modify fun machine =>
    { machine with resolving := machine.resolving ++ [name] }

/- The last name is no longer being resolved. -/
def pop
    (machine : Machine) : Machine :=
  { machine with resolving := machine.resolving.dropLast }

------------------------------------------------------------
-- Parts Of Expressions
------------------------------------------------------------

/- The argument of a spread. -/
def spread? : Expr → Option Expr
  | ⟨.spread argument, _⟩ => some argument
  | _ => none

/- The sides of a case. -/
def sides? : Expr → Option (Expr × Expr)
  | ⟨.binary _ left right, _⟩ => some (left, right)
  | _ => none

/- The value of a property. -/
def value? : Member → Option Expr
  | .property _ _ value _ _ => some value
  | .spread _ => none

/- Members, each with the one in front of it. -/
def withPrevious
    (previous : Option Member)
    (members : List Member) : List (Member × Option Member) :=
  members.zip (previous :: members.map some)

/- Set the keys of an object; other values set none. -/
def applyAll
    (fields : Fields) : Schema → Fields
  | .object entries =>
    entries.toList.foldl
      (fun fields entry => Fields.applyEntry fields entry.1 entry.2)
      fields
  | _ => fields

/- The object of both sides of a case, spread into one. -/
def combined
    (left right : Expr) : Expr :=
  ⟨.object [.spread ⟨.spread left, {}⟩, .spread ⟨.spread right, {}⟩],
    { span := left.span }⟩

------------------------------------------------------------
-- Names And Parts
------------------------------------------------------------

/- The calls that a call makes: to compile, and to take as written. -/
structure Nested where
  compile : Expr → Run Schema
  write : Expr → Run Schema

/- The schema of a name; a declared one is compiled in between. -/
def resolve
    (nested : Nested)
    (e : Expr) : Run Schema := do
  let name ← check e.referenceName
  let machine ← get
  match machine.registry.get? name with
  | none => fail (.unknownReference name) e.span
  | some (.compiled schema) => pure (Compile.titled name schema)
  | some (.source source) =>
    if name ∈ machine.resolving then fail (.circular name) e.span
    else do
      push name
      -- The name is popped whether the expression is compiled or not.
      let schema ← (do
        let result ← (nested.compile source).run
        modify pop
        pure result : StateT Machine Option (Except CompileError Schema))
      pure (Compile.titled name schema)

/- Compile a case: its left side, and both sides in one object. -/
def case
    (nested : Nested)
    (left right : Expr) : Run (Schema × Schema) := do
  let condition ← nested.compile left
  let consequence ← nested.compile (combined left right)
  pure (condition.setKey "additionalProperties" (.bool true), consequence)

/- Compile the elements of an array literal. -/
def array
    (compiler : Compiler)
    (nested : Nested)
    (elements : List Expr)
    (exact : Bool) : Run Schema := do
  let fields := Compile.arrayFields elements.length exact
  match Compile.arrayFault? elements exact with
  | some error => throw error
  | none =>
    match elements with
    | [] => pure (.object fields)
    | [element] =>
      match spread? element with
      | some argument => do
        let schema ← nested.compile argument
        pure (.object (OrderedMap.insert fields "contains" schema))
      | none => do
        let schema ← nested.compile element
        pure (.object (OrderedMap.insert fields "items" schema))
    | elements => do
      let (tupleKey, restKey) := Compile.tupleKeys compiler.version
      let items ←
        (elements.filter fun element => !element.isSpread).mapM
          nested.compile
      let fields := OrderedMap.insert fields tupleKey (.array items)
      match elements.findSome? spread? with
      | some argument => do
        let schema ← nested.compile argument
        pure (.object (OrderedMap.insert fields restKey schema))
      | none => pure (.object fields)

------------------------------------------------------------
-- Calls Of Functions And Methods
------------------------------------------------------------

/- Compile a member of an argument that is a map of schemas. -/
def schemaInto
    (nested : Nested)
    (name : String)
    (fields : Fields) : Member → Run Fields
  | .spread e => fail (.argumentSpread name) e.span
  | .property key _ value span _ => do
    let key ← check (key.propertyName span)
    let schema ← nested.compile value
    pure (OrderedMap.insert fields key schema)

/- Turn the only argument of a call into a schema. -/
def readArg
    (nested : Nested)
    (name : String)
    (span : Span)
    (reading : Reading)
    (arg : Expr) : Run Schema :=
  let notObject : CompileError := ⟨.argument name .firstObject, span⟩
  match reading, arg with
  | .schema, arg => nested.compile arg
  | .flagOrSchema, ⟨.boolean value, _⟩ => pure (.bool value)
  | .flagOrSchema, arg => nested.compile arg
  | .items, ⟨.array elements, _⟩ => do
    let items ← elements.mapM nested.compile
    pure (.array items)
  | .items, arg => nested.compile arg
  | .schemaMap, ⟨.call callee arguments, note⟩ => do
    let schema ← nested.compile ⟨.call callee arguments, note⟩
    if schema.isMap then pure schema else throw notObject
  | .schemaMap, ⟨.object members, _⟩ => do
    let fields ← members.foldlM (schemaInto nested name) .empty
    pure (.object fields)
  | .schemaMap, _ => throw notObject
  | .literal, arg => nested.write arg
  | .literalObject, ⟨.object members, note⟩ =>
    nested.write ⟨.object members, note⟩
  | .literalObject, _ => throw notObject

/- Turn arguments into what an operation demands. -/
def evaluate
    (nested : Nested)
    (demand : Demand)
    (site : Call) : Run demand.Result :=
  match demand, site with
  | .nothing, _ => pure ()
  | .value reading, ⟨name, [arg], span⟩ =>
    readArg nested name span reading arg
  | .value _, site => throw (site.error .oneArgument)
  | .schemas, site => do
    check site.atLeastOne
    site.args.mapM nested.compile
  | .entries, ⟨_, [⟨.object members, _⟩], _⟩ => do
    let names ← check (Call.memberNames members)
    let values ← (members.filterMap value?).mapM nested.write
    pure (names.zip values)
  | .entries, ⟨name, [key, value], span⟩ => do
    let target ← check (Call.firstString ⟨name, [key, value], span⟩ key)
    let schema ← nested.write value
    pure [(target, schema)]
  | .entries, site => throw (site.error site.entryFault)
  | .definitions, ⟨name, first :: others, span⟩ => do
    let target ← check (Call.firstString ⟨name, first :: others, span⟩ first)
    others.foldlM
      (fun _ arg => do
        let schema ← nested.compile arg
        define target schema
        pure schema) (.object .empty)
  | .definitions, site => throw (site.error .atLeastOne)

/- Run a method on a schema. -/
def operate
    (nested : Nested)
    (method : Method)
    (receiver : Schema)
    (site : Call) : Run Schema := do
  check (method.admits receiver site)
  let result ← evaluate nested method.demand site
  check (method.finish receiver site result)

/- Compile a call of a function or a method. -/
def call
    (compiler : Compiler)
    (nested : Nested)
    (callee : Expr)
    (arguments : List Expr)
    (note : Note) : Run Schema :=
  match callee with
  | ⟨.identifier name, calleeNote⟩ =>
    match compiler.functions.get? name with
    | none => fail (.unknownFunction name) calleeNote.span
    | some function => do
      let site : Call := ⟨name, arguments, note.span⟩
      let result ← evaluate nested function.demand site
      check (function.finish site result)
  | ⟨.member object property false, _⟩ =>
    match property.identifier? with
    | none => fail (.unknownForm property.kindName) property.span
    | some name => do
      let receiver ← nested.compile object
      match compiler.methods.get? name with
      | none => fail (.unknownMethod name) property.span
      | some method =>
        let result ←
          operate nested method receiver ⟨name, arguments, note.span⟩
        if result.isFalsy then fail (.noSchema name) note.span
        else pure result.stripNames
  | other => fail (.callee other.kindName) other.span

------------------------------------------------------------
-- Members Of Object Literals
------------------------------------------------------------

/- Spread an argument into the entries of an object. -/
def spreadInto
    (nested : Nested)
    (fields : Fields)
    (argument : Expr) : Run Fields :=
  match argument with
  | ⟨.unary .not ⟨.unary .not ⟨.object members, note⟩, _⟩, _⟩ => do
    let values ← nested.write ⟨.object members, note⟩
    pure (applyAll fields values)
  | argument => do
    let source ← nested.compile argument
    check (Fields.merge fields [source] argument.span)

/- Compile one member into the entries of an object. -/
def memberInto
    (compiler : Compiler)
    (nested : Nested)
    (previous : Option Member)
    (fields : Fields)
    (member : Member) : Run Fields :=
  match member with
  | .spread e =>
    match spread? e with
    | some argument => spreadInto nested fields argument
    | none => fail (.unknownForm e.kindName) e.span
  | .property (.regex _ _) _ _ _ _ => pure fields
  | .property key computed value span comments => do
    let name ← check (key.propertyName span)
    match Compile.directive? compiler name with
    | some (directive, method) => do
      let result ←
        operate nested method (.object fields) ⟨directive, [value], span⟩
      match result with
      | .object fields => pure fields
      | _ => fail (.noObject name) span
    | none =>
      if value.isUndefined then
        pure (Fields.removeProperty (Fields.toggleRequired fields name false) name)
      else do
        let fields := Fields.toggleRequired fields name !computed
        let schema ← nested.compile value
        let (fields, schema) := Member.describe fields schema comments previous
        pure (Fields.insertProperty fields name schema)

/- Compile a member that is a pattern. -/
def patternInto
    (nested : Nested)
    (patterns : OrderedMap Schema) : Member → Run (OrderedMap Schema)
  | .property (.regex pattern _) _ value _ _ => do
    let schema ← nested.compile value
    pure (OrderedMap.insert patterns pattern schema)
  | _ => pure patterns

/- Take a member as it is written. -/
def literalInto
    (nested : Nested)
    (fields : Fields) : Member → Run Fields
  | .spread e => fail .literalSpread e.span
  | .property key _ value span _ => do
    let name ← check (Compile.literalKey key span)
    let schema ← nested.write value
    pure (OrderedMap.insert fields name schema)

------------------------------------------------------------
-- Expressions
------------------------------------------------------------

/- Compile an object literal. -/
def object
    (compiler : Compiler)
    (nested : Nested)
    (members : List Member)
    (note : Note) : Run Schema := do
  let fields ← (withPrevious none members).foldlM
    (fun fields step =>
      memberInto compiler nested step.2 fields step.1)
    Fields.skeleton
  let fields ←
    if members.any Member.isPattern then do
      let patterns ← members.foldlM (patternInto nested) .empty
      pure (Fields.addPatterns fields patterns)
    else pure fields
  pure (Schema.describe note.comments.preferred (.object fields))

/- Compile a chain of one logical operator. -/
def logical
    (nested : Nested)
    (op : LogicalOp)
    (chain : Expr) : Run Schema :=
  match Chain.fault? op chain with
  | some error => throw error
  | none =>
    let leaves := Chain.leaves chain
    if op = .or && leaves.all Chain.isCase then do
      let cases ← (leaves.filterMap sides?).mapM fun sides =>
        case nested sides.1 sides.2
      pure (Chain.switch cases)
    else
      match (if op = .or then Chain.constants? leaves else none) with
      | some constants => pure (Chain.enumeration constants)
      | none => do
        let branches ← leaves.mapM nested.compile
        pure (.object (.single (Chain.branchKey op) (.array branches)))

/- Compile an expression. -/
def expr
    (compiler : Compiler)
    (nested : Nested)
    (e : Expr) : Run Schema :=
  match e with
  | ⟨.assignment op target value, note⟩ =>
    match op with
    | .assign => do
      let name ← check target.referenceName
      let schema ← nested.compile value
      register name note.comments.preferred schema
    | .compound _ => fail (.assignOperator op) note.span
  | ⟨.binary op left right, note⟩ =>
    if op = .shr then do
      let (condition, consequence) ← case nested left right
      pure (.ifThen condition consequence)
    else
      match Limited.of? ⟨.binary op left right, note⟩ with
      | some range => do
        let schema ← nested.compile range.operand
        pure (range.apply schema)
      | none => resolve nested ⟨.binary op left right, note⟩
  | ⟨.identifier name, note⟩ => resolve nested ⟨.identifier name, note⟩
  | ⟨.member object property computed, note⟩ =>
    resolve nested ⟨.member object property computed, note⟩
  | ⟨.null, note⟩ => resolve nested ⟨.null, note⟩
  | ⟨.object members, note⟩ => object compiler nested members note
  | ⟨.array elements, _⟩ => array compiler nested elements false
  | ⟨.logical op left right, note⟩ =>
    logical nested op ⟨.logical op left right, note⟩
  | ⟨.string value, _⟩ => pure (Compile.constant (.string value))
  | ⟨.boolean value, _⟩ => pure (Compile.constant (.bool value))
  | ⟨.regex pattern _, _⟩ => pure (.matching pattern)
  | ⟨.call callee arguments, note⟩ =>
    call compiler nested callee arguments note
  | ⟨.arrow params body, note⟩ =>
    match params with
    | [param] => do
      let name ← check param.referenceName
      let schema ← nested.compile body
      register name note.comments.preferred schema
    | _ => nested.compile body
  | ⟨.unary .not argument, note⟩ =>
    match argument with
    | ⟨.unary .not ⟨.object members, inner⟩, _⟩ =>
      nested.write ⟨.object members, inner⟩
    | ⟨.unary .not ⟨.array elements, _⟩, _⟩ =>
      array compiler nested elements true
    | ⟨.unary .not operand, _⟩ =>
      fail (.pureOperand operand.kindName) operand.span
    | _ => fail .loneNot note.span
  | ⟨.conditional test consequent alternate, _⟩ => do
    let test' ← nested.compile test
    let consequent' ← nested.compile consequent
    let alternate' ← nested.compile alternate
    pure (.ifThenElse test' consequent' alternate')
  | other =>
    match other.number? with
    | some value => pure (Compile.constant (.ofBinary64 value))
    | none => fail (.unknownForm other.kindName) other.span

/- Take an expression as it is written; names are resolved. -/
def literal
    (compiler : Compiler)
    (nested : Nested)
    (e : Expr) : Run Schema :=
  if e.isUndefined then pure (.removal e.span)
  else
    match e.number? with
    | some value => pure (.ofBinary64 value)
    | none =>
      match e with
      | ⟨.object members, _⟩ => do
        let fields ← members.foldlM (literalInto nested) .empty
        pure (.object fields)
      | ⟨.array elements, _⟩ => do
        let items ← elements.mapM nested.write
        pure (.array items)
      | ⟨.string value, _⟩ => pure (.string value)
      | ⟨.boolean value, _⟩ => pure (.bool value)
      | ⟨.null, _⟩ => pure .null
      | ⟨.identifier name, note⟩ => resolve nested ⟨.identifier name, note⟩
      | ⟨.member object property computed, note⟩ =>
        resolve nested ⟨.member object property computed, note⟩
      | ⟨.binary op left right, note⟩ =>
        resolve nested ⟨.binary op left right, note⟩
      | ⟨.call callee arguments, note⟩ =>
        call compiler nested callee arguments note
      | other => fail (.unknownForm other.kindName) other.span

/- The machine whose calls are nested at most so deep. -/
def atDepth
    (compiler : Compiler) : Nat → Nested
  | 0 => { compile := fun _ => cut, write := fun _ => cut }
  | depth + 1 =>
    { compile := expr compiler (atDepth compiler depth)
      write := literal compiler (atDepth compiler depth) }

------------------------------------------------------------
-- Cases
------------------------------------------------------------

attribute [local simp] expr object memberInto

/- The object that is built for a case is its sides, spread in turn. -/
theorem expr_combined
    (compiler : Compiler)
    (nested : Nested)
    (left right : Expr) :
    expr compiler nested (combined left right) = (do
      let fields ← spreadInto nested Fields.skeleton left
      let fields ← spreadInto nested fields right
      pure (.object fields)) := by
  simp [combined, withPrevious, spread?, Member.isPattern,
    Schema.describe, Comments.preferred]

end Machine

end SchemaLang
