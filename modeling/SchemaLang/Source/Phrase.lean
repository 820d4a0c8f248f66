import SchemaLang.Source.Text

/-
  This file defines phrases: what the grammar finds in a prepared
  text, with the text of literals as it is written. A phrase that
  the grammar admits and the language has no use for keeps only
  the name of its construct.

  Key definitions include:
    * `Part`
    * `Phrase`
    * `Shape`
    * `Phrase.construct`
    * `Part.elements`
-/

namespace SchemaLang

/- What stands between the brackets of a list. -/
inductive Part (α : Type)
  | comment (remark : Remark)
  | comma
  | element (item : α)

mutual

/- A shape and its place. -/
inductive Phrase
  | mk (range : Range) (shape : Shape)

/-
  How a phrase is built. A pair keeps the comments on either side
  of its colon.
-/
inductive Shape
  | name (text : String)
  | number (text : String)
  | string (text : String)
  | template (text : String)
  | boolean (value : Bool)
  | null
  | regex (pattern flags : String)
  | parentheses (parts : List (Part Phrase))
  | binary (op : String) (left right : Phrase)
  | unary (op : String) (argument : Phrase)
  | assignment (target value : Phrase)
  | augmented (op : String) (target value : Phrase)
  | ternary (test consequence alternative : Phrase)
  | member (object : Phrase) (property : String) (place : Range)
  | index (object key : Phrase)
  | call (callee : Phrase) (arguments : List (Part Phrase))
  | tagged (template : Range)
  | arrow (params : List Phrase) (body : Phrase)
  | object (members : List (Part Phrase))
  | array (elements : List (Part Phrase))
  | spread (argument : Phrase)
  | pair (key value : Phrase) (remarks : List Remark)
  | shorthand (text : String)
  | computed (key : Phrase)
  | foreign (construct : String)

end

namespace Part

/- The elements of a list. -/
def elements {α : Type} : List (Part α) → List α
  | [] => []
  | .element item :: rest => item :: elements rest
  | _ :: rest => elements rest

end Part

namespace Phrase

/- The place of a phrase. -/
def range : Phrase → Range
  | ⟨range, _⟩ => range

/- How a phrase is built. -/
def shape : Phrase → Shape
  | ⟨_, shape⟩ => shape

/- The name of the construct that a phrase is. -/
def construct : Phrase → String
  | ⟨_, .name text⟩ =>
    if text == "undefined" then "undefined" else "identifier"
  | ⟨_, .number _⟩ => "number"
  | ⟨_, .string _⟩ => "string"
  | ⟨_, .template _⟩ => "template_string"
  | ⟨_, .boolean value⟩ => if value then "true" else "false"
  | ⟨_, .null⟩ => "null"
  | ⟨_, .regex _ _⟩ => "regex"
  | ⟨_, .parentheses _⟩ => "parenthesized_expression"
  | ⟨_, .binary _ _ _⟩ => "binary_expression"
  | ⟨_, .unary _ _⟩ => "unary_expression"
  | ⟨_, .assignment _ _⟩ => "assignment_expression"
  | ⟨_, .augmented _ _ _⟩ => "augmented_assignment_expression"
  | ⟨_, .ternary _ _ _⟩ => "ternary_expression"
  | ⟨_, .member _ _ _⟩ => "member_expression"
  | ⟨_, .index _ _⟩ => "subscript_expression"
  | ⟨_, .call _ _⟩ => "call_expression"
  | ⟨_, .tagged _⟩ => "call_expression"
  | ⟨_, .arrow _ _⟩ => "arrow_function"
  | ⟨_, .object _⟩ => "object"
  | ⟨_, .array _⟩ => "array"
  | ⟨_, .spread _⟩ => "spread_element"
  | ⟨_, .pair _ _ _⟩ => "pair"
  | ⟨_, .shorthand _⟩ => "shorthand_property_identifier"
  | ⟨_, .computed _⟩ => "computed_property_name"
  | ⟨_, .foreign construct⟩ => construct

end Phrase

end SchemaLang
