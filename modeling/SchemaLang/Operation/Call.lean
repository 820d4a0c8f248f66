import SchemaLang.Error
import SchemaLang.Expr.Reference
import SchemaLang.Schema.Basic

/-
  This file defines calls of operations and the checks of their
  arguments.

  Key definitions include:
    * `Call`
    * `Call.fault`
    * `Call.oneArg`
    * `Call.selection`
    * `Call.requirement`
    * `Call.memberNames`
    * `Call.entryFault`
-/

namespace SchemaLang

/- An operation's name, its arguments as written, and its place. -/
structure Call where
  name : String
  args : List Expr
  span : Span

namespace Call

------------------------------------------------------------
-- Errors
------------------------------------------------------------

/- The error for an argument or receiver that is not accepted. -/
def error
    (call : Call)
    (fault : ArgumentFault) : CompileError :=
  ⟨.argument call.name fault, call.span⟩

/- Refuse an argument or receiver. -/
def fault {α : Type}
    (call : Call)
    (fault : ArgumentFault) : Except CompileError α :=
  .error (call.error fault)

/- A value, or else a fault. -/
def need {α : Type}
    (call : Call)
    (fault : ArgumentFault) : Option α → Except CompileError α
  | some value => .ok value
  | none => call.fault fault

------------------------------------------------------------
-- Arguments
------------------------------------------------------------

/- The only argument. -/
def oneArg
    (call : Call) : Except CompileError Expr :=
  match call.args with
  | [arg] => .ok arg
  | _ => call.fault .oneArgument

/- Whether there is an argument at all. -/
def atLeastOne
    (call : Call) : Except CompileError Unit :=
  if call.args.isEmpty then call.fault .atLeastOne else .ok ()

/- An argument that is a string. -/
def firstString
    (call : Call)
    (arg : Expr) : Except CompileError String :=
  call.need .firstString arg.string?

/- An argument that is a number. -/
def firstNumber
    (call : Call)
    (arg : Expr) : Except CompileError Binary64 :=
  call.need .firstNumber arg.number?

/- An argument that is a boolean. -/
def firstBoolean
    (call : Call)
    (arg : Expr) : Except CompileError Bool :=
  call.need .firstBoolean arg.boolean?

/- Strings, or else a fault at the first one that is none. -/
def stringsOr
    (call : Call)
    (fault : ArgumentFault) : List Expr → Except CompileError (List String)
  | [] => .ok []
  | arg :: rest => do
    let first ← call.need fault arg.string?
    let others ← stringsOr call fault rest
    pure (first :: others)

/- Arguments that are all strings. -/
def onlyStrings
    (call : Call) : Except CompileError (List String) :=
  call.stringsOr .onlyStrings call.args

/- The only argument, which is a string. -/
def oneString
    (call : Call) : Except CompileError String := do
  call.firstString (← call.oneArg)

/- The only argument, which is a number. -/
def oneNumber
    (call : Call) : Except CompileError Binary64 := do
  call.firstNumber (← call.oneArg)

/- The only argument, which is a boolean. -/
def oneBoolean
    (call : Call) : Except CompileError Bool := do
  call.firstBoolean (← call.oneArg)

/- The only argument, which is a string or a regular expression. -/
def onePattern
    (call : Call) : Except CompileError String := do
  let arg ← call.oneArg
  match arg.form with
  | .regex pattern _ => pure pattern
  | _ => call.firstString arg

------------------------------------------------------------
-- Selected Names
------------------------------------------------------------

/- Names with the names that are to replace them. -/
abbrev Selection := OrderedMap String

/- Select names by the properties of an object literal. -/
def selectMembers
    (call : Call)
    (selected : Selection) : List Member → Except CompileError Selection
  | [] => .ok selected
  | .property key _ value _ _ :: rest =>
    match key.name?, value.string? with
    | some name, some renamed =>
      selectMembers call (selected.insert name renamed) rest
    | _, _ => call.fault .selection
  | .spread _ :: _ => call.fault .selection

/- Select names by strings and object literals. -/
def selectItems
    (call : Call)
    (selected : Selection) : List Expr → Except CompileError Selection
  | [] => .ok selected
  | ⟨.string value, _⟩ :: rest =>
    selectItems call (selected.insert value value) rest
  | ⟨.object members, _⟩ :: rest => do
    let selected' ← selectMembers call selected members
    selectItems call selected' rest
  | _ :: _ => call.fault .selection

/- The elements of an array literal, or the argument itself. -/
def flatArg : Expr → List Expr
  | ⟨.array elements, _⟩ => elements
  | arg => [arg]

/- The names that the arguments select. -/
def selection
    (call : Call) : Except CompileError Selection :=
  call.selectItems .empty (call.args.flatMap flatArg)

------------------------------------------------------------
-- Required Names
------------------------------------------------------------

/- Names given one by one, or as a list. -/
inductive Requirement
  | names (names : List String)
  | list (names : List String)

/- The names that the arguments give. -/
def requirement
    (call : Call) : Except CompileError Requirement := do
  call.atLeastOne
  match call.args with
  | [arg] =>
    match arg.string?, arg.form with
    | some name, _ => pure (.names [name])
    | none, .array elements =>
      let names ← call.stringsOr .arrayOfStrings elements
      pure (.list names)
    | none, _ => call.fault .array
  | _ =>
    let names ← call.onlyStrings
    pure (.names names)

------------------------------------------------------------
-- Entries
------------------------------------------------------------

/- The names of an object literal's properties. -/
def memberNames : List Member → Except CompileError (List String)
  | [] => .ok []
  | .property key _ _ span _ :: rest => do
    let name ← key.propertyName span
    let names ← memberNames rest
    pure (name :: names)
  | .spread e :: _ => .error ⟨.literalSpread, e.span⟩

/-
  Why arguments give no values to keys. They do if they are one
  object literal, or a key that is followed by its value.
-/
def entryFault
    (call : Call) : ArgumentFault :=
  match call.args with
  | [] => .atLeastOne
  | [⟨.string _, _⟩] => .twoArguments
  | [_] => .firstObject
  | _ => .onlyTwo

end Call

end SchemaLang
