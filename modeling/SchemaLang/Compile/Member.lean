import SchemaLang.Expr.Basic
import SchemaLang.Schema.Property

/-
  This file defines what an object literal starts from, and how the
  comments of its members describe them.

  Key definitions include:
    * `Fields.skeleton`
    * `Member.describe`
-/

namespace SchemaLang

namespace Fields

/- The entries of an object without properties. -/
def skeleton : Fields := .of
  [("type", .string "object"), ("additionalProperties", .bool false),
    ("required", .array []), ("properties", .object .empty)]

/- Describe a property that is there already. -/
def describeProperty
    (fields : Fields)
    (name : String)
    (comments : List Comment) : Fields :=
  match properties? fields with
  | none => fields
  | some properties =>
    match properties.get? name with
    | none => fields
    | some value =>
      fields.insert "properties"
        (.object (properties.insert name (value.describe comments)))

/- Add patterns with their schemas. -/
def addPatterns
    (fields : Fields)
    (patterns : OrderedMap Schema) : Fields :=
  match (fields.get? "patternProperties").bind Schema.fields? with
  | some existing =>
    fields.insert "patternProperties"
      (.object (existing.insertAll patterns.toList))
  | none => fields.insert "patternProperties" (.object patterns)

end Fields

namespace Member

/- Whether a member's key is a regular expression. -/
def isPattern : Member → Bool
  | property (.regex _ _) _ _ _ _ => true
  | _ => false

/-
  The name of the property in front that a comment belongs to: the
  comment starts on the line where that property ends.
-/
def describedName?
    (previous : Option Member)
    (first : Comment) : Option (Option String) :=
  match previous with
  | some (property key _ _ span _) =>
    if span.stop.line = first.span.start.line then some key.name? else none
  | _ => none

/-
  Describe a member's schema by its comments. A leading comment on
  the line where the property in front ends describes that one.
-/
def describe
    (fields : Fields)
    (value : Schema)
    (comments : Comments)
    (previous : Option Member) : Fields × Schema :=
  match comments.leading with
  | [] => (fields, value.describe comments.trailing)
  | first :: others =>
    match describedName? previous first with
    | none => (fields, value.describe comments.leading)
    | some name =>
      let fields :=
        match name with
        | some name => Fields.describeProperty fields name [first]
        | none => fields
      if others.isEmpty then (fields, value.describe comments.trailing)
      else (fields, value.describe others)

end Member

end SchemaLang
