import SchemaLang.Expr.Operator
import SchemaLang.Number.Layout
import SchemaLang.Span

/-
  This file defines expression trees. An expression is a form and
  a note; the note holds where and how the form was written.

  Key definitions include:
    * `Note`
    * `Expr`
    * `Form`
    * `Member`
    * `Key`
    * `Expr.kindName`
    * `Expr.number?`
    * `Expr.pureOperand?`
    * `Key.name?`
-/

namespace SchemaLang

/- Where and how an expression was written. -/
structure Note where
  span : Span := {}
  comments : Comments := {}
  parenthesized : Bool := false
  deriving DecidableEq, Repr

mutual

/- An expression. -/
inductive Expr
  | mk (form : Form) (note : Note)

/- What an expression is made of. -/
inductive Form
  | assignment (op : AssignOp) (target value : Expr)
  | binary (op : BinaryOp) (left right : Expr)
  | logical (op : LogicalOp) (left right : Expr)
  | unary (op : UnaryOp) (argument : Expr)
  | identifier (name : String)
  | member (object property : Expr) (computed : Bool)
  | object (members : List Member)
  | array (elements : List Expr)
  | number (value : Binary64)
  | string (value : String)
  | boolean (value : Bool)
  | null
  | regex (pattern flags : String)
  | call (callee : Expr) (arguments : List Expr)
  | arrow (params : List Expr) (body : Expr)
  | conditional (test consequent alternate : Expr)
  | spread (argument : Expr)

/-
  One entry of an object literal. A property is computed when its
  key was written in brackets.
-/
inductive Member
  | property (key : Key) (computed : Bool) (value : Expr)
      (span : Span) (comments : Comments)
  | spread (expr : Expr)

/- The key of a property. -/
inductive Key
  | identifier (name : String)
  | string (value : String)
  | number (value : Binary64)
  | regex (pattern flags : String)
  | expression (expr : Expr)

end

------------------------------------------------------------
-- Expressions
------------------------------------------------------------

namespace Expr

/- What the expression is made of. -/
def form : Expr → Form
  | ⟨form, _⟩ => form

/- Where and how the expression was written. -/
def note : Expr → Note
  | ⟨_, note⟩ => note

/- The expression's place. -/
def span
    (e : Expr) : Span :=
  e.note.span

/- The comments that belong to the expression. -/
def comments
    (e : Expr) : Comments :=
  e.note.comments

/- The expression at another place. -/
def withSpan
    (span : Span) : Expr → Expr
  | ⟨form, note⟩ => ⟨form, { note with span := span }⟩

/- The expression with other comments. -/
def withComments
    (comments : Comments) : Expr → Expr
  | ⟨form, note⟩ => ⟨form, { note with comments := comments }⟩

/- The expression written in parentheses. -/
def inParentheses : Expr → Expr
  | ⟨form, note⟩ => ⟨form, { note with parenthesized := true }⟩

/- The name of an expression's kind in messages. -/
def kindName : Expr → String
  | ⟨.assignment _ _ _, _⟩ => "Assignment"
  | ⟨.binary _ _ _, _⟩ => "Binary"
  | ⟨.logical _ _ _, _⟩ => "Logical"
  | ⟨.unary _ _, _⟩ => "Unary"
  | ⟨.identifier _, _⟩ => "Identifier"
  | ⟨.member _ _ _, _⟩ => "MemberAccess"
  | ⟨.object _, _⟩ => "ObjectLiteral"
  | ⟨.array _, _⟩ => "ArrayLiteral"
  | ⟨.number _, _⟩ => "NumberLiteral"
  | ⟨.string _, _⟩ => "StringLiteral"
  | ⟨.boolean _, _⟩ => "BooleanLiteral"
  | ⟨.null, _⟩ => "NullLiteral"
  | ⟨.regex _ _, _⟩ => "RegexLiteral"
  | ⟨.call _ _, _⟩ => "Call"
  | ⟨.arrow _ _, _⟩ => "ArrowFunction"
  | ⟨.conditional _ _ _, _⟩ => "Conditional"
  | ⟨.spread _, _⟩ => "Spread"

/- The name, if the expression is an identifier. -/
def identifier? : Expr → Option String
  | ⟨.identifier name, _⟩ => some name
  | _ => none

/- The value, if the expression is a string literal. -/
def string? : Expr → Option String
  | ⟨.string value, _⟩ => some value
  | _ => none

/- The value, if the expression is a boolean literal. -/
def boolean? : Expr → Option Bool
  | ⟨.boolean value, _⟩ => some value
  | _ => none

/-
  The value of a number literal, which may have a minus in front.
  What is not finite is no number of a document.
-/
def number? : Expr → Option Binary64
  | ⟨.number value, _⟩ => if value.isFinite then some value else none
  | ⟨.unary .neg ⟨.number value, _⟩, _⟩ =>
    if value.isFinite then some value.negate else none
  | _ => none

/- Whether the expression is the identifier `undefined`. -/
def isUndefined
    (e : Expr) : Bool :=
  e.identifier? == some "undefined"

/- The operand, if the expression is `!!operand`. -/
def pureOperand? : Expr → Option Expr
  | ⟨.unary .not ⟨.unary .not operand, _⟩, _⟩ => some operand
  | _ => none

/- Whether the expression is `...argument`. -/
def isSpread : Expr → Bool
  | ⟨.spread _, _⟩ => true
  | _ => false

/- A number literal; a negative number is a minus and a literal. -/
def ofBinary64
    (value : Binary64) : Expr :=
  if value.isNegative then
    ⟨.unary .neg ⟨.number value.negate, {}⟩, {}⟩
  else ⟨.number value, {}⟩

end Expr

------------------------------------------------------------
-- Keys And Members
------------------------------------------------------------

namespace Key

/- The name that a key denotes, if it denotes one. -/
def name? : Key → Option String
  | identifier name => some name
  | string value => some value
  | number value => some (Layout.keyText value)
  | regex pattern _ => some pattern
  | expression _ => none

/- A key has some size. -/
theorem sizeOf_pos
    (key : Key) :
    0 < sizeOf key := by
  cases key <;>
    simp only [Key.identifier.sizeOf_spec, Key.string.sizeOf_spec,
      Key.number.sizeOf_spec, Key.regex.sizeOf_spec,
      Key.expression.sizeOf_spec] <;>
    omega

end Key

namespace Member

/- The member's place. -/
def span : Member → Span
  | property _ _ _ span _ => span
  | spread e => e.span

/- The comments that belong to the member. -/
def comments : Member → Comments
  | property _ _ _ _ comments => comments
  | spread e => e.comments

end Member

end SchemaLang
