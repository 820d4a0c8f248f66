import SchemaLang.Expr.Operator
import SchemaLang.Span
import SchemaLang.Text.Quoted

/-
  This file defines what can go wrong while an expression is
  compiled. An error is a cause and a place; the wording of all
  messages is in one function.

  Key definitions include:
    * `ArgumentFault`
    * `Cause`
    * `Cause.message`
    * `Cause.sort`
    * `CompileError`
-/

namespace SchemaLang

------------------------------------------------------------
-- Causes
------------------------------------------------------------

/- What is wrong with the arguments or the receiver of a call. -/
inductive ArgumentFault
  | oneArgument
  | atLeastOne
  | twoArguments
  | onlyTwo
  | onlyStrings
  | firstString
  | firstNumber
  | firstBoolean
  | firstObject
  | array
  | arrayOfStrings
  | selection
  | receiver (label : String)
  | schemaObjects
  deriving DecidableEq, Repr

/- The causes of compile errors. -/
inductive Cause
  | unknownForm (kind : String)
  | loneNot
  | pureOperand (kind : String)
  | referenceShape (kind : String)
  | referenceOperator
  | referencePart
  | keyShape (kind : String)
  | assignOperator (op : AssignOp)
  | callee (kind : String)
  | literalSpread
  | literalKey (kind : String)
  | exactSpread
  | secondSpread
  | chainOperator (op : LogicalOp)
  | mixedChain (root : LogicalOp)
  | noProperties
  | argumentSpread (method : String)
  | strayRemoval
  | unknownReference (name : String)
  | unknownFunction (name : String)
  | unknownMethod (name : String)
  | unknownProperty (name : String)
  | circular (name : String)
  | noSchema (method : String)
  | noObject (directive : String)
  | argument (method : String) (fault : ArgumentFault)
  | noOption (name : String)
  | mergeTypes (target source : String)
  deriving DecidableEq, Repr

/- The three sorts of causes. -/
inductive ErrorSort
  | syntactic
  | reference
  | runtime
  deriving DecidableEq, Repr

------------------------------------------------------------
-- Wording
------------------------------------------------------------

namespace ArgumentFault

/- What a method asks for. -/
def wording : ArgumentFault → String
  | oneArgument => "required one argument"
  | atLeastOne => "required at least one argument"
  | twoArguments => "required two arguments"
  | onlyTwo => "accept only two arguments"
  | onlyStrings => "accept only strings"
  | firstString => "required first argument to be a string"
  | firstNumber => "required first argument to be a number"
  | firstBoolean => "required first argument to be a boolean"
  | firstObject => "required first argument to be an object"
  | array => "required array"
  | arrayOfStrings => "required array of strings"
  | selection =>
    "accept only strings, key/string objects or array of strings"
  | receiver label =>
    "allowed only for " ++ Quoted.quote label ++ " schema"
  | schemaObjects => "allowed only for schema objects"

end ArgumentFault

namespace Cause

/- The message of a cause, without its place. -/
def message : Cause → String
  | unknownForm kind => "Unknown syntax: " ++ kind
  | loneNot => "Unknown operator \"!\""
  | pureOperand kind =>
    "Unknown argument type for \"!!\" operator: " ++ kind
  | referenceShape kind => "Invalid reference type: " ++ kind
  | referenceOperator => "Invalid binary operator"
  | referencePart => "Invalid binary item type"
  | keyShape kind => "Invalid object key type: " ++ kind
  | assignOperator op =>
    "Invalid assign operator: " ++ Quoted.quote op.text
  | callee kind => "Invalid call expression: " ++ kind
  | literalSpread => "Invalid object element: Spread"
  | literalKey kind => "Unknown object property key type: " ++ kind
  | exactSpread =>
    "Invalid array syntax. Exclamation sign with spread is not allowed"
  | secondSpread => "Invalid array syntax. Only one spread allowed"
  | chainOperator op => "Invalid enum operator: " ++ op.text
  | mixedChain root =>
    "All operators of enum should be same type: " ++ root.text
  | noProperties => "Invalid \"object\" schema, \"properties\" undefined"
  | argumentSpread method =>
    "Method " ++ Quoted.quote method ++
      " invalid object property type: Spread"
  | strayRemoval => "Unexpected undefined value"
  | unknownReference name => "Unknown reference: " ++ Quoted.quote name
  | unknownFunction name => "Unknown function: " ++ Quoted.quote name
  | unknownMethod name => "Unknown schema method: " ++ Quoted.quote name
  | unknownProperty name =>
    "Property " ++ Quoted.quote name ++ " is undefined"
  | circular name => "Circular reference: " ++ Quoted.quote name
  | noSchema method =>
    "Method " ++ Quoted.quote method ++ " must return schema"
  | noObject directive =>
    "Directive " ++ Quoted.quote directive ++
      " must return an object schema"
  | argument method fault =>
    "Method " ++ Quoted.quote method ++ " " ++ fault.wording
  | noOption name => "Option " ++ Quoted.quote name ++ " is undefined"
  | mergeTypes target source =>
    "You can extend only same type schemas: " ++ target ++ " and " ++
      source

/- The sort of a cause. -/
def sort : Cause → ErrorSort
  | unknownReference _ => .reference
  | unknownFunction _ => .reference
  | unknownMethod _ => .reference
  | unknownProperty _ => .reference
  | circular _ => .runtime
  | noSchema _ => .runtime
  | noObject _ => .runtime
  | argument _ _ => .runtime
  | noOption _ => .runtime
  | mergeTypes _ _ => .runtime
  | _ => .syntactic

/- The name that could not be resolved. -/
def unresolved? : Cause → Option String
  | unknownReference name => some name
  | unknownFunction name => some name
  | unknownMethod name => some name
  | unknownProperty name => some name
  | _ => none

end Cause

------------------------------------------------------------
-- Errors
------------------------------------------------------------

/- A cause and the place it is reported at. -/
structure CompileError where
  cause : Cause
  span : Span
  deriving DecidableEq, Repr

namespace CompileError

/- The message with its place. -/
def display
    (error : CompileError) : String :=
  error.cause.message ++ " (" ++ error.span.place ++ ")"

end CompileError

end SchemaLang
