import SchemaLang.Expr.Basic

/-
  This file groups chains of comparisons to the left, however the
  grammar has grouped them. An operand in parentheses stays whole.

  Key definitions include:
    * `Comparison.group`
-/

namespace SchemaLang.Comparison

/- The span from the start of one expression to the end of another. -/
def across
    (left right : Expr) : Span :=
  { left.span with stop := right.span.stop }

/-
  A binary form. Where both it and its right operand compare, the
  left operand moves into the right one.
-/
def group
    (op : BinaryOp)
    (left : Expr) : Expr → Form
  | ⟨.binary next inner rest, note⟩ =>
    if op.isRelational && next.isRelational && !note.parenthesized then
      .binary next ⟨group op left inner, { span := across left inner }⟩ rest
    else .binary op left ⟨.binary next inner rest, note⟩
  | right => .binary op left right

end SchemaLang.Comparison
