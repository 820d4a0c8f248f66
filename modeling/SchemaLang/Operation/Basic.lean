import SchemaLang.Operation.Call
import SchemaLang.Schema.Property

/-
  This file defines operations. An operation demands its arguments
  in some form, and finishes with what they have become. Only the
  demands need the compiler.

  Key definitions include:
    * `Reading`
    * `Demand`
    * `Demand.Result`
    * `Method`
    * `Function`
    * `Method.admits`
-/

namespace SchemaLang

/-
  How the only argument is turned into a schema:
    * `schema`: it is compiled;
    * `flagOrSchema`: it is a boolean or is compiled;
    * `items`: it is compiled, an array element by element;
    * `schemaMap`: it is an object whose values are compiled;
    * `literal`: it is taken as written;
    * `literalObject`: the same, and it is an object.
-/
inductive Reading
  | schema
  | flagOrSchema
  | items
  | schemaMap
  | literal
  | literalObject
  deriving DecidableEq, Repr

/-
  What an operation wants of its arguments before it finishes:
    * `nothing`: they are used as they are written;
    * `value`: the only one becomes a schema;
    * `schemas`: all are compiled, and there is at least one;
    * `entries`: keys are given values, which are taken as written;
    * `definitions`: the first one names all others in turn.
-/
inductive Demand
  | nothing
  | value (reading : Reading)
  | schemas
  | entries
  | definitions
  deriving DecidableEq, Repr

/- What the arguments become. -/
abbrev Demand.Result : Demand → Type
  | .nothing => Unit
  | .value _ => Schema
  | .schemas => List Schema
  | .entries => Pairs Schema
  | .definitions => Schema

/-
  An operation on a schema. If it names a kind of receiver, other
  schemas are refused before the arguments are looked at.
-/
structure Method where
  receiver : Option Schema.Kind := none
  demand : Demand
  finish : Schema → Call → demand.Result → Except CompileError Schema

/- An operation without a receiver. -/
structure Function where
  demand : Demand
  finish : Call → demand.Result → Except CompileError Schema

namespace Method

/- The name of a kind of receiver in messages. -/
def kindLabel : Schema.Kind → String
  | .object => "object"
  | .array => "array"
  | .string => "string"
  | .number => "number"
  | .const => "const"
  | .composite => "enum"
  | .conditional => "conditional"
  | .raw => "raw"

/- Whether a schema is of the kind that a method names. -/
def admits
    (method : Method)
    (schema : Schema)
    (call : Call) : Except CompileError Unit :=
  match method.receiver with
  | none => .ok ()
  | some kind =>
    if schema.kind = kind then .ok ()
    else call.fault (.receiver (kindLabel kind))

------------------------------------------------------------
-- Methods That Set A Key
------------------------------------------------------------

/- Set a key to what the arguments are found to say. -/
def setting
    (receiver : Option Schema.Kind)
    (key : Call → String)
    (value : Call → Except CompileError Schema) : Method where
  receiver := receiver
  demand := .nothing
  finish := fun schema call _ => do
    let value ← value call
    pure (schema.setKey (key call) value)

/- Set a key to a number. -/
def number
    (receiver : Schema.Kind)
    (key : Call → String) : Method :=
  setting (some receiver) key fun call => do
    let value ← call.oneNumber
    pure (.ofBinary64 value)

/- Set a key to a string. -/
def text
    (receiver : Option Schema.Kind)
    (key : String) : Method :=
  setting receiver (fun _ => key) fun call => do
    let value ← call.oneString
    pure (.string value)

/- Set a key to a boolean. -/
def flag
    (receiver : Schema.Kind)
    (key : String) : Method :=
  setting (some receiver) (fun _ => key) fun call => do
    let value ← call.oneBoolean
    pure (.bool value)

/- Set a key to what the only argument becomes. -/
def schema
    (receiver : Option Schema.Kind)
    (key : String)
    (reading : Reading) : Method where
  receiver := receiver
  demand := .value reading
  finish := fun schema _ value => .ok (schema.setKey key value)

end Method

end SchemaLang
