import SchemaLang.Source.Parser
import SchemaLang.Source.Grammar.Binding

/-
  This file says which words the grammar keeps for itself, and
  which rules refer to one another.

  Key definitions include:
    * `Grammar.reserved`
    * `Grammar.name`
    * `Grammar.startsExpression`
    * `Grammar.joinsLine`
    * `Grammar.Ending`
    * `Grammar.Sequel`
    * `Grammar.Rules`
-/

namespace SchemaLang.Grammar

open SchemaLang.Parser

------------------------------------------------------------
-- Words
------------------------------------------------------------

/- Words that are no names. -/
def reserved : List String :=
  ["break", "case", "catch", "class", "const", "continue",
    "debugger", "default", "delete", "do", "else", "extends", "false",
    "finally", "for", "function", "if", "import", "in", "instanceof",
    "null", "return", "super", "switch", "this", "throw", "true", "try",
    "typeof", "var", "void", "while", "with", "yield"]

/- Whether a token is a word that may be a name. -/
def isName
    (token : Token) : Bool :=
  match token.lexeme with
  | .word text => !reserved.contains text
  | _ => false

/- Take a name. -/
def name : Parser String := do
  let token ← advance
  match token.lexeme with
  | .word text => if reserved.contains text then failure else pure text
  | _ => failure

/- Take a name that stands for something declared. -/
def identifier : Parser Unit := do
  let text ← name
  if text == "new" then failure

/- Whether a token behind an operand may start an expression. -/
def startsExpression
    (token : Token) : Bool :=
  match token.lexeme with
  | .mark text =>
    ["(", "[", "\x7b", "!", "~", "+", "-", "++", "--", "<"].contains text
  | .word text =>
    (isName token && text != "as" && text != "satisfies") ||
      ["class", "delete", "false", "function", "import", "null", "super",
        "this", "true", "typeof", "void", "yield"].contains text
  | .templateMiddle => false
  | .templateTail => false
  | _ => true

/-
  Whether a token at the start of a line goes on with the line
  before, and so no statement ends between them. Brackets do behind
  a value. Of a word only its front is looked at.
-/
def joinsLine
    (afterValue : Bool)
    (token : Token) : Bool :=
  let isOperator (word : List Char) : Bool :=
    ["in", "instanceof"].any fun op =>
      word.take op.length == op.toList &&
        !(word.drop op.length).head?.any Char.isAlpha
  match token.lexeme with
  | .mark text =>
    if text == "(" || text == "[" then afterValue
    else if text == "++" || text == "--" || text == "!" then false
    else
      match text.toList with
      | c :: _ => ",.;*%><=?^|&/:+-!".toList.contains c
      | [] => false
  | .word text => isOperator text.toList
  | .number text => text.startsWith "."
  | .template _ => true
  | .templateHead => true
  | .regex _ _ => true
  | _ => false

/- Whether a statement may end here for the end of a line. -/
def seesLineEnd
    (afterValue : Bool) : Parser Bool := do
  if ← seesLineBreak then
    pure (!(← sees (joinsLine afterValue)))
  else pure false

/- Whether a line ends behind the next word. -/
def standsAlone : Parser Bool :=
  admits do
    let _ ← advance
    if !(← seesLineEnd true) then failure

/- Take any word. -/
def anyWord : Parser String := do
  let token ← advance
  match token.lexeme with
  | .word text => pure text
  | _ => failure

/- Take a quoted string. -/
def quoted : Parser String := do
  let token ← advance
  match token.lexeme with
  | .quoted text => pure text
  | _ => failure

/- Take a number. -/
def number : Parser String := do
  let token ← advance
  match token.lexeme with
  | .number text => pure text
  | _ => failure

------------------------------------------------------------
-- Rules
------------------------------------------------------------

/-
  What is needed behind a type: a mark that closes it, an arrow, or
  nothing, so that it ends where an operator of expressions stands.
-/
inductive Ending
  | closer
  | arrow
  | anything
  deriving DecidableEq, Repr

/-
  What follows an expression: a comma or a closing mark, a colon and
  a type perhaps, a colon, or the end of a statement, which may be
  the end of a line. In front of a colon no function at the end of
  the expression states what type it returns.
-/
inductive Sequel
  | closer
  | ascribed
  | colon
  | line
  deriving DecidableEq, Repr

/-
  The rules that refer to one another. An expression depends on
  what waits for it and on what follows it. A target is an operand
  with members behind it. A type depends on what is needed behind it.
-/
structure Rules where
  expression : Pending → Sequel → Parser Phrase
  target : Parser Phrase
  pattern : Parser Phrase
  typing : Ending → Parser Unit
  statement : Parser Sentence

/- An expression that nothing waits for and no statement ends with. -/
def Rules.value
    (rules : Rules) : Parser Phrase :=
  rules.expression .nothing .closer

/- A type with a closing mark behind it. -/
def Rules.type
    (rules : Rules) : Parser Unit :=
  rules.typing .closer

/- Rules that admit nothing. -/
def Rules.none : Rules where
  expression := fun _ _ => failure
  target := failure
  pattern := failure
  typing := fun _ => failure
  statement := failure

end SchemaLang.Grammar
