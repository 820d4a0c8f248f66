import SchemaLang.Operation.Builtin

/-
  This file defines further operations, which a compiler may be
  given beside those that are there from the start.

  Key definitions include:
    * `Extension.functions`
    * `Extension.methods`
    * `Extension.directives`
-/

namespace SchemaLang.Extension

------------------------------------------------------------
-- Functions
------------------------------------------------------------

/- A schema, or null. -/
def nullable : Function where
  demand := .value .schema
  finish := fun _ schema =>
    let nothing : Schema := .object (.single "type" (.string "null"))
    .ok (.object (.single "anyOf" (.array [schema, nothing])))

/- The text of an argument: a number, a string, or else nothing. -/
def partText
    (arg : Expr) : String :=
  match arg.number? with
  | some value => Layout.keyText value
  | none => arg.string?.getD ""

/- The texts of all arguments, joined. -/
def join : Function where
  demand := .nothing
  finish := fun call _ =>
    let parts := call.args.map partText
    .ok (.string ("test=" ++ String.intercalate "-" parts))

/- The argument as it is written. -/
def raw : Function where
  demand := .value .literal
  finish := fun _ value => .ok value

/- Name the schemas of the arguments behind the first. -/
def define : Function where
  demand := .definitions
  finish := fun _ schema => .ok schema

/- The further functions. -/
def functions : OrderedMap Function :=
  .of
    [("nullable", nullable), ("join", join), ("raw", raw),
      ("define", define)]

------------------------------------------------------------
-- Methods
------------------------------------------------------------

/- A method that answers without looking at its arguments. -/
def constant
    (answer : Schema → Call → Schema) : Method where
  demand := .nothing
  finish := fun schema call _ => .ok (answer schema call)

/- Set the format to all arguments, joined. -/
def format : Method :=
  Method.setting none (fun _ => "format") fun call => do
    let names ← call.onlyStrings
    pure (.string (String.intercalate "/" names))

/- The further methods. -/
def methods : OrderedMap Method := .of
  [("tag", Method.schema none "tag" .literal),
    ("nothing", constant fun _ _ => .null),
    ("gone", constant fun _ call => .removal call.span),
    ("label", constant fun schema _ => .string schema.typeLabel),
    ("format", format)]

/- The further directives. -/
def directives : OrderedMap Method := .of
  [("test", Method.schema none "success" .literal),
    ("broken", constant fun _ call => .string call.name)]

end SchemaLang.Extension
