import SchemaLang.Error
import SchemaLang.Expr.Basic
import SchemaLang.Schema.Basic

/-
  This file takes chains of `||` and `&&` apart. A chain has one
  operator; a group in parentheses is one leaf.

  Key definitions include:
    * `Chain.fault?`
    * `Chain.leaves`
    * `Chain.Constant`
    * `Chain.enumeration`
    * `Chain.switch`
-/

namespace SchemaLang

namespace Chain

------------------------------------------------------------
-- Leaves
------------------------------------------------------------

/- Why an operator does not belong to a chain of another. -/
def operatorFault?
    (root op : LogicalOp) : Option Cause :=
  if op = .nullish then some (.chainOperator op)
  else if op = root then none
  else some (.mixedChain root)

/-
  The first operator that does not belong to a chain. The flag
  tells whether the expression is the chain itself, which is taken
  apart even in parentheses.
-/
def faultAt?
    (root : LogicalOp)
    (whole : Bool) : Expr → Option CompileError
  | ⟨.logical op left right, note⟩ =>
    if note.parenthesized && !whole then none
    else
      match operatorFault? root op with
      | some cause => some ⟨cause, note.span⟩
      | none =>
        (faultAt? root false left).or (faultAt? root false right)
  | _ => none

/- The operands of a chain, in the order of the text. -/
def leavesAt
    (whole : Bool) : Expr → List Expr
  | ⟨.logical op left right, note⟩ =>
    if note.parenthesized && !whole then [⟨.logical op left right, note⟩]
    else leavesAt false left ++ leavesAt false right
  | leaf => [leaf]

/- The first operator that does not belong to the chain. -/
def fault?
    (root : LogicalOp)
    (e : Expr) : Option CompileError :=
  faultAt? root true e

/- The operands of the chain that an expression is. -/
def leaves
    (e : Expr) : List Expr :=
  leavesAt true e

/- The size of a list that another one is appended to. -/
theorem sizeOf_append {α : Type} [SizeOf α]
    (xs ys : List α) :
    sizeOf (xs ++ ys) + 1 = sizeOf xs + sizeOf ys := by
  induction xs with
  | nil => simp; omega
  | cons x xs ih => simp; omega

/- The operands of a chain together are hardly larger than it. -/
theorem sizeOf_leavesAt
    (whole : Bool)
    (e : Expr) :
    sizeOf (leavesAt whole e) ≤ sizeOf e + 2 := by
  fun_induction leavesAt whole e with
  | case1 =>
    simp
    omega
  | case2 whole op left right note h ihl ihr =>
    have := sizeOf_append (leavesAt false left) (leavesAt false right)
    have : 0 < sizeOf op := by cases op <;> simp
    simp
    omega
  | case3 =>
    simp
    omega

/- The operands of a chain together are smaller than it. -/
theorem sizeOf_leaves
    (op : LogicalOp)
    (left right : Expr)
    (note : Note) :
    sizeOf (leaves ⟨.logical op left right, note⟩) <
      sizeOf (Expr.mk (.logical op left right) note) := by
  have := sizeOf_append (leavesAt false left) (leavesAt false right)
  have := sizeOf_leavesAt false left
  have := sizeOf_leavesAt false right
  have : 0 < sizeOf op := by cases op <;> simp
  have : 0 < sizeOf note := by cases note; simp
  simp [leaves, leavesAt]
  omega

------------------------------------------------------------
-- Enumerations
------------------------------------------------------------

/- A constant that a chain may list. -/
inductive Constant
  | string (value : String)
  | number (value : Binary64)
  | null

/- The constant that a leaf is. -/
def Constant.of?
    (e : Expr) : Option Constant :=
  match e.form with
  | .string value => some (.string value)
  | .null => some .null
  | _ => e.number?.map .number

/- The constants of leaves, if all of them are constants. -/
def constants? : List Expr → Option (List Constant)
  | [] => some []
  | leaf :: rest =>
    match Constant.of? leaf, constants? rest with
    | some first, some others => some (first :: others)
    | _, _ => none

/- The kinds of constants that are grouped. -/
inductive Group
  | string
  | number
  deriving DecidableEq, Repr

/- The type of a group. -/
def Group.type : Group → String
  | string => "string"
  | number => "number"

/- The group of a constant, and its value. -/
def Constant.grouped? : Constant → Option (Group × Schema)
  | string value => some (.string, .string value)
  | number value => some (.number, .ofBinary64 value)
  | null => none

/- Add a value to its group. -/
def addTo
    (group : Group)
    (value : Schema) :
    List (Group × List Schema) → List (Group × List Schema)
  | [] => [(group, [value])]
  | (other, values) :: rest =>
    if other = group then (other, values ++ [value]) :: rest
    else (other, values) :: addTo group value rest

/- The groups of constants, in the order of their first values. -/
def groups
    (constants : List Constant) : List (Group × List Schema) :=
  (constants.filterMap Constant.grouped?).foldl
    (fun groups entry => addTo entry.1 entry.2 groups) []

/- Whether a constant is null. -/
def Constant.isNull : Constant → Bool
  | null => true
  | _ => false

/- The schema of null. -/
def nullSchema : Schema :=
  .object (.single "type" (.string "null"))

/- The schema of a group. -/
def groupSchema
    (group : Group × List Schema) : Schema :=
  .object (.of [("type", .string group.1.type), ("enum", .array group.2)])

/- The schema of a group beside others; one value stands alone. -/
def branch
    (group : Group × List Schema) : Schema :=
  match group.2 with
  | [value] => .object (.single "const" value)
  | _ => groupSchema group

/- The schema of listed constants, null behind all others. -/
def enumeration
    (constants : List Constant) : Schema :=
  let hasNull := constants.any Constant.isNull
  match groups constants, hasNull with
  | [], _ => nullSchema
  | [group], false => groupSchema group
  | groups, _ =>
    let last := if hasNull then [nullSchema] else []
    .object (.single "anyOf" (.array (groups.map branch ++ last)))

------------------------------------------------------------
-- Switches
------------------------------------------------------------

/- Whether an expression is a case of a switch. -/
def isCase : Expr → Bool
  | ⟨.binary .shr _ _, _⟩ => true
  | _ => false

/-
  Conditions with their consequences, each tried if those before it
  do not hold. One condition has to hold.
-/
def switch
    (cases : List (Schema × Schema)) : Schema :=
  let last : Schema := .object (.single "oneOf" (.array (cases.map Prod.fst)))
  cases.foldr (fun case rest => .ifThenElse case.1 case.2 rest) last

/- The key of the branches of a chain. -/
def branchKey : LogicalOp → String
  | .and => "allOf"
  | _ => "anyOf"

end Chain

end SchemaLang
