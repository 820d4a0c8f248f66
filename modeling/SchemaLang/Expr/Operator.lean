/-
  This file defines the operators of expressions and their
  spelling in source text.

  Key definitions include:
    * `BinaryOp`
    * `BinaryOp.isRelational`
    * `LogicalOp`
    * `UnaryOp`
    * `AssignOp`
-/

namespace SchemaLang

------------------------------------------------------------
-- Binary Operators
------------------------------------------------------------

/- Operators with two operands other than the logical ones. -/
inductive BinaryOp
  | add
  | sub
  | mul
  | div
  | mod
  | exp
  | eq
  | strictEq
  | ne
  | strictNe
  | lt
  | le
  | gt
  | ge
  | shl
  | shr
  | ushr
  | bitAnd
  | bitOr
  | bitXor
  | isIn
  | instanceOf
  deriving DecidableEq, Repr

namespace BinaryOp

/- All binary operators. -/
def all : List BinaryOp :=
  [add, sub, mul, div, mod, exp, eq, strictEq, ne, strictNe, lt, le, gt,
    ge, shl, shr, ushr, bitAnd, bitOr, bitXor, isIn, instanceOf]

/- The spelling of a binary operator. -/
def text : BinaryOp → String
  | add => "+"
  | sub => "-"
  | mul => "*"
  | div => "/"
  | mod => "%"
  | exp => "**"
  | eq => "=="
  | strictEq => "==="
  | ne => "!="
  | strictNe => "!=="
  | lt => "<"
  | le => "<="
  | gt => ">"
  | ge => ">="
  | shl => "<<"
  | shr => ">>"
  | ushr => ">>>"
  | bitAnd => "&"
  | bitOr => "|"
  | bitXor => "^"
  | isIn => "in"
  | instanceOf => "instanceof"

/- The binary operator with a spelling. -/
def ofText?
    (spelling : String) : Option BinaryOp :=
  all.find? fun op => op.text == spelling

/- The four comparisons of order. -/
def isRelational : BinaryOp → Bool
  | lt => true
  | le => true
  | gt => true
  | ge => true
  | _ => false

end BinaryOp

------------------------------------------------------------
-- Logical Operators
------------------------------------------------------------

/- Operators that join alternatives or conditions. -/
inductive LogicalOp
  | and
  | or
  | nullish
  deriving DecidableEq, Repr

namespace LogicalOp

/- All logical operators. -/
def all : List LogicalOp :=
  [and, or, nullish]

/- The spelling of a logical operator. -/
def text : LogicalOp → String
  | and => "&&"
  | or => "||"
  | nullish => "??"

/- The logical operator with a spelling. -/
def ofText?
    (spelling : String) : Option LogicalOp :=
  all.find? fun op => op.text == spelling

end LogicalOp

------------------------------------------------------------
-- Unary Operators
------------------------------------------------------------

/- Operators written before one operand. -/
inductive UnaryOp
  | not
  | neg
  | plus
  | bitNot
  | typeOf
  | void
  | delete
  deriving DecidableEq, Repr

namespace UnaryOp

/- All unary operators. -/
def all : List UnaryOp :=
  [not, neg, plus, bitNot, typeOf, void, delete]

/- The spelling of a unary operator. -/
def text : UnaryOp → String
  | not => "!"
  | neg => "-"
  | plus => "+"
  | bitNot => "~"
  | typeOf => "typeof"
  | void => "void"
  | delete => "delete"

/- The unary operator with a spelling. -/
def ofText?
    (spelling : String) : Option UnaryOp :=
  all.find? fun op => op.text == spelling

end UnaryOp

------------------------------------------------------------
-- Assignment Operators
------------------------------------------------------------

/- Plain assignment, or a compound one kept by its spelling. -/
inductive AssignOp
  | assign
  | compound (spelling : String)
  deriving DecidableEq, Repr

namespace AssignOp

/- The spelling of an assignment operator. -/
def text : AssignOp → String
  | assign => "="
  | compound spelling => spelling

end AssignOp

end SchemaLang
