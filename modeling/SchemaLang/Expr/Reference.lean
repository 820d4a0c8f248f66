import SchemaLang.Error
import SchemaLang.Expr.Basic

/-
  This file defines the names that expressions denote. A schema is
  named by an identifier, by `null`, by a chain of members such as
  `Api.User`, or by words joined with dashes such as `date-time`,
  which are read as subtractions.

  Key definitions include:
    * `Expr.isReference`
    * `Expr.referenceName`
    * `Key.propertyName`
-/

namespace SchemaLang

namespace Expr

/-
  Whether an expression is shaped like a name. Every binary
  expression is; those that are not dashed words have no name.
-/
def isReference : Expr → Bool
  | ⟨.identifier _, _⟩ => true
  | ⟨.member _ _ _, _⟩ => true
  | ⟨.null, _⟩ => true
  | ⟨.binary _ _ _, _⟩ => true
  | _ => false

/- A word or words joined with dashes. -/
def dashedName : Expr → Except CompileError String
  | ⟨.identifier name, _⟩ => .ok name
  | ⟨.binary op left right, note⟩ =>
    if op = .sub then do
      let first ← dashedName left
      let second ← dashedName right
      return first ++ "-" ++ second
    else .error ⟨.referenceOperator, note.span⟩
  | ⟨_, note⟩ => .error ⟨.referencePart, note.span⟩

/- The last part of a chain of members. -/
def partName
    (property : Expr)
    (computed : Bool) : Except CompileError String :=
  match property, computed with
  | ⟨.identifier name, _⟩, false => .ok name
  | ⟨.string value, _⟩, true => .ok value
  | _, _ => .error ⟨.referenceShape property.kindName, property.span⟩

/- The name that an expression denotes. -/
def referenceName : Expr → Except CompileError String
  | ⟨.null, _⟩ => .ok "null"
  | ⟨.identifier name, _⟩ => .ok name
  | ⟨.member object property computed, _⟩ => do
    let owner ← referenceName object
    let part ← partName property computed
    return owner ++ "." ++ part
  | ⟨.binary op left right, note⟩ =>
    dashedName ⟨.binary op left right, note⟩
  | ⟨form, note⟩ =>
    .error ⟨.referenceShape (kindName ⟨form, note⟩), note.span⟩

end Expr

namespace Key

/- The name that the key of a property at a place denotes. -/
def propertyName
    (key : Key)
    (span : Span) : Except CompileError String :=
  match key with
  | identifier name => .ok name
  | string value => .ok value
  | regex pattern _ => .ok pattern
  | number _ => .error ⟨.keyShape "NumberLiteral", span⟩
  | expression e => .error ⟨.keyShape e.kindName, e.span⟩

end Key

end SchemaLang
