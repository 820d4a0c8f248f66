import SchemaLang.Expr.Basic
import SchemaLang.Schema.Property

/-
  This file recognises ranges that are written as comparisons. The
  limits have to be number literals.

  Key definitions include:
    * `Limited`
    * `Limited.of?`
    * `Limited.apply`
-/

namespace SchemaLang

/- An expression and the limits of the numbers that it describes. -/
structure Limited where
  operand : Expr
  limits : List (String × Binary64)

namespace Limited

/- Whether an operator is `<` or `<=`. -/
def isLess : BinaryOp → Bool
  | .lt => true
  | .le => true
  | _ => false

/- The key of a limit to the left of `<` or `<=`. -/
def lowerKey : BinaryOp → String
  | .le => "minimum"
  | _ => "exclusiveMinimum"

/- The key of a limit to the right of a comparison. -/
def limitKey : BinaryOp → String
  | .lt => "exclusiveMaximum"
  | .le => "maximum"
  | .gt => "exclusiveMinimum"
  | _ => "minimum"

/- A range with a lower and an upper limit. -/
def between? : Expr → Option Limited
  | ⟨.binary upper ⟨.binary lower least operand, _⟩ most, _⟩ =>
    if isLess upper && isLess lower then
      match least.number?, most.number? with
      | some low, some high =>
        some ⟨operand, [(lowerKey lower, low), (limitKey upper, high)]⟩
      | _, _ => none
    else none
  | _ => none

/- A range with one limit, to the right. -/
def bound? : Expr → Option Limited
  | ⟨.binary op operand limit, _⟩ =>
    if op.isRelational then
      match limit.number? with
      | some value => some ⟨operand, [(limitKey op, value)]⟩
      | none => none
    else none
  | _ => none

/- The range that an expression is. -/
def of?
    (e : Expr) : Option Limited :=
  match between? e with
  | some range => some range
  | none => bound? e

/- Limit what a schema describes. -/
def apply
    (range : Limited)
    (schema : Schema) : Schema :=
  range.limits.foldl
    (fun schema limit => schema.setKey limit.1 (.ofBinary64 limit.2)) schema

/- How a range is written, with two limits or with one. -/
inductive Written : Limited → Expr → Prop where
  | between
      {upper lower : BinaryOp}
      {least operand most : Expr}
      {inner note : Note}
      {low high : Binary64} :
      Written
        ⟨operand, [(lowerKey lower, low), (limitKey upper, high)]⟩
        ⟨.binary upper ⟨.binary lower least operand, inner⟩ most, note⟩
  | bound
      {op : BinaryOp}
      {operand limit : Expr}
      {note : Note}
      {value : Binary64} :
      Written ⟨operand, [(limitKey op, value)]⟩
        ⟨.binary op operand limit, note⟩

theorem written_of_between?
    {e : Expr}
    {range : Limited}
    (h : between? e = some range) :
    Written range e := by
  unfold between? at h
  split at h
  · split at h
    · split at h
      · cases h
        exact .between
      · cases h
    · cases h
  · cases h

theorem written_of_bound?
    {e : Expr}
    {range : Limited}
    (h : bound? e = some range) :
    Written range e := by
  unfold bound? at h
  split at h
  · split at h
    · split at h
      · cases h
        exact .bound
      · cases h
    · cases h
  · cases h

theorem written_of_of?
    {e : Expr}
    {range : Limited}
    (h : of? e = some range) :
    Written range e := by
  unfold of? at h
  split at h
  · rename_i h'
    cases h
    exact written_of_between? h'
  · exact written_of_bound? h

/- The operand of a range is smaller than the range. -/
theorem sizeOf_of?
    {e : Expr}
    {range : Limited}
    (h : of? e = some range) :
    sizeOf range.operand < sizeOf e := by
  cases written_of_of? h with
  | between =>
      simp
      omega
  | bound =>
      simp
      omega

end Limited

end SchemaLang
