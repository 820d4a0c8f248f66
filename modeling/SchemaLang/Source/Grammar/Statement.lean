import SchemaLang.Source.Grammar.Declaration

/-
  This file admits statements. Only expressions are kept; a
  statement of another kind keeps its construct.

  Key definitions include:
    * `Grammar.statement`
-/

namespace SchemaLang.Grammar

open SchemaLang.Parser

------------------------------------------------------------
-- Statements
------------------------------------------------------------

/- A condition in parentheses. -/
def condition
    (rules : Rules) : Parser Unit := do
  mark "("
  let _ ← enclosed rules

/- The head of a loop over a range or a collection. -/
def loopHead
    (rules : Rules) : Parser Unit := do
  let awaited ← acceptWord "await"
  mark "("
  let sequenced : Parser Unit := do
    if awaited then failure
    let _ ← optional (discard (declarators rules) <|> discard (sequence rules))
    mark ";"
    let _ ← optional (sequence rules)
    mark ";"
    let _ ← optional (sequence rules)
    mark ")"
  let connective : Parser Unit :=
    word "of" <|> word "in"
  let valued : Parser Unit := do
    word "var"
    declaredName rules
    if ← acceptMark "=" then discard rules.value
  let fresh : Parser Unit := do
    if ← acceptWord "const" then declaredName rules
    else
      word "let"
      if ← seesWord "of" then failure
      declaredName rules
  let grouped : Parser Unit := do
    mark "("
    let _ ← enclosed rules
  let collected : Parser Unit := do
    let bind (item : Parser Unit) : Parser Unit := do
      item
      connective
    bind valued <|> bind fresh <|> bind grouped <|> bind (discard rules.pattern)
    let _ ← sequence rules
    mark ")"
  collected <|> sequenced

/- A case of a switch. -/
def switchCase
    (rules : Rules) : Parser Unit := do
  if ← acceptWord "default" then pure ()
  else
    word "case"
    let _ ← sequence rules
  mark ":"
  let _ ← many rules.statement

/- The handlers of a guarded block. -/
def handlers
    (rules : Rules) : Parser Unit := do
  if ← acceptWord "catch" then
    let _ ← optional do
      mark "("
      let _ ← rules.pattern
      ascription rules
      mark ")"
    block rules
  if ← acceptWord "finally" then block rules

/- A statement that a word starts. -/
def wordStatement
    (rules : Rules)
    (start : Point)
    (text : String) : Parser Sentence := do
  let _ ← peek
  if text == "if" then
    let _ ← advance
    condition rules
    let _ ← rules.statement
    if ← acceptWord "else" then
      let _ ← rules.statement
    otherStatement start "if_statement"
  else if text == "for" then
    let _ ← advance
    loopHead rules
    let _ ← rules.statement
    otherStatement start "for_statement"
  else if text == "while" then
    let _ ← advance
    condition rules
    let _ ← rules.statement
    otherStatement start "while_statement"
  else if text == "with" then
    let _ ← advance
    condition rules
    let _ ← rules.statement
    otherStatement start "with_statement"
  else if text == "do" then
    let _ ← advance
    let _ ← rules.statement
    word "while"
    condition rules
    acceptFinish
    otherStatement start "do_statement"
  else if text == "return" then
    let _ ← advance
    if ← seesLineEnd false then pure ()
    else
      match ← optional (sequenceBefore rules .line) with
      | some _ => finish true
      | none => finish false
    otherStatement start "return_statement"
  else if text == "throw" then
    let _ ← advance
    let _ ← sequenceBefore rules .line
    finish true
    otherStatement start "throw_statement"
  else if text == "break" || text == "continue" then
    let _ ← advance
    if ← seesLineEnd false then pure ()
    else
      let _ ← optional identifier
      finish false
    otherStatement start (text ++ "_statement")
  else if text == "debugger" then
    let _ ← advance
    finish false
    otherStatement start "debugger_statement"
  else if text == "switch" then
    let _ ← advance
    condition rules
    mark "\x7b"
    let _ ← many (switchCase rules)
    mark "\x7d"
    otherStatement start "switch_statement"
  else if text == "try" then
    let _ ← advance
    block rules
    handlers rules
    otherStatement start "try_statement"
  else failure

/- A statement behind a name and a colon. -/
def labelled
    (rules : Rules)
    (start : Point) : Parser Sentence := do
  let text ← name
  if text == "undefined" then failure
  mark ":"
  let _ ← rules.statement
  otherStatement start "labeled_statement"

/- A statement that is an expression, up to its end. -/
def finishExpression
    (start : Point)
    (phrase : Phrase) : Parser Sentence := do
  if ← seesMark ";" then
    let token ← advance
    pure (.expression ⟨start, token.range.stop⟩
      [.element phrase, .semicolon token.range])
  else
    finish true
    pure (.expression ⟨start, ← lastPoint⟩ [.element phrase])

/- An expression as a statement. -/
def expressionStatement
    (rules : Rules)
    (start : Point) : Parser Sentence := do
  finishExpression start (← sequenceBefore rules .line)

/- A statement. -/
def statement
    (rules : Rules) : Parser Sentence := do
  let token ← peek
  let start := token.range.start
  match token.lexeme with
  | .mark text =>
    if text == ";" then
      let _ ← advance
      otherStatement start "empty_statement"
    else if text == "\x7b" then
      braced rules (otherStatement start) (expressionStatement rules start)
    else expressionStatement rules start
  | .word text =>
    if ← seesDeclaration text then declaration rules start text
    else
      wordStatement rules start text <|> declaration rules start text
        <|> labelled rules start <|> expressionStatement rules start
  | _ => expressionStatement rules start

end SchemaLang.Grammar
