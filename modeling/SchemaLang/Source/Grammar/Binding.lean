import SchemaLang.Source.Phrase
import SchemaLang.Source.Token

/-
  This file says how tight operators bind. While something waits in
  front of an expression, the expression takes some operators and
  leaves others to what is around it.

  Key definitions include:
    * `Binding.level?`
    * `Pending`
    * `Joint`
    * `Joint.of?`
    * `Pending.takes`
-/

namespace SchemaLang.Grammar

------------------------------------------------------------
-- Levels
------------------------------------------------------------

namespace Binding

/- How tight a binary operator binds. -/
def level?
    (op : String) : Option Nat :=
  let table :=
    [["??"], ["||"], ["&&"], ["|"], ["^"], ["&"],
      ["==", "!=", "===", "!=="],
      ["<", "<=", ">", ">=", "in", "instanceof"],
      ["<<", ">>", ">>>"], ["+", "-"], ["*", "/", "%"], ["**"]]
  table.findIdx? fun ops => ops.contains op

/- The level of comparisons. -/
def comparison : Nat := 7

/- The level of the operator that groups to the right. -/
def power : Nat := 11

end Binding

------------------------------------------------------------
-- Joints
------------------------------------------------------------

/-
  What may follow an operand and go on with it: a binary operator,
  an opening angle bracket, the mark of a choice, a step by one, or
  a claim about the type.
-/
inductive Joint
  | binary (level : Nat)
  | angle
  | choice
  | step
  | claim
  deriving DecidableEq, Repr

namespace Joint

/- The joint that a token is. -/
def of?
    (token : Token) : Option Joint :=
  match token.lexeme with
  | .mark text =>
    if text == "<" then some .angle
    else if text == "?" then some .choice
    else if text == "!" then some .claim
    else if text == "++" || text == "--" then some .step
    else (Binding.level? text).map .binary
  | .word text =>
    if text == "as" || text == "satisfies" then some .claim
    else (Binding.level? text).map .binary
  | _ => none

end Joint

------------------------------------------------------------
-- What Waits
------------------------------------------------------------

/-
  What stands in front of an expression and waits for it: nothing
  that binds, a binary operator, an operator in front of its
  operand, a step by one, the word for a result to come, or a type.
-/
inductive Pending
  | nothing
  | binary (level : Nat)
  | unary
  | step
  | await
  | assertion
  deriving DecidableEq, Repr

namespace Pending

/-
  Whether an expression takes a joint. A binary operator takes
  tighter ones, and the tightest also itself. A comparison takes an
  angle bracket, for it may open type arguments. A claim is about
  all that is in front of it, as far as that groups to the left.
-/
def takes
    (pending : Pending)
    (joint : Joint) : Bool :=
  match pending, joint with
  | .nothing, _ => true
  | .binary outer, .binary inner =>
    if outer = Binding.power then inner = Binding.power
    else outer < inner
  | .binary outer, .angle => outer ≤ Binding.comparison
  | .binary _, .choice => false
  | .binary _, .step => true
  | .binary outer, .claim => outer = Binding.power
  | .unary, .step => true
  | .unary, _ => false
  | .step, _ => false
  | .await, .step => true
  | .await, .claim => true
  | .await, _ => false
  | .assertion, .angle => true
  | .assertion, _ => false

end Pending

end SchemaLang.Grammar
