import SchemaLang.Source.Grammar.Operand

/-
  This file admits expressions: operands with what joins them.

  Key definitions include:
    * `Grammar.joined`
    * `Grammar.applied`
    * `Grammar.expression`
-/

namespace SchemaLang.Grammar

open SchemaLang.Parser

------------------------------------------------------------
-- Assignments
------------------------------------------------------------

/- Operators that assign what they compute. -/
def augmentedOps : List String :=
  ["+=", "-=", "*=", "/=", "%=", "^=", "&=", "|=", ">>=", ">>>=", "<<=",
    "**=", "&&=", "||=", "??="]

/- Whether a phrase may be assigned to by an augmented operator. -/
def isTarget
    (phrase : Phrase) : Bool :=
  match phrase.shape with
  | .name text => text != "undefined"
  | .member _ _ _ => true
  | .index _ _ => true
  | .parentheses _ => true
  | .foreign construct => construct == "non_null_expression"
  | _ => false

/- Whether a phrase may be assigned to. -/
def isPlainTarget
    (phrase : Phrase) : Bool :=
  isTarget phrase ||
    match phrase.shape with
    | .name _ => true
    | .foreign construct =>
      construct == "object_pattern" || construct == "array_pattern"
    | _ => false

/- An assignment to an operand, from its operator. -/
def assigned
    (rules : Rules)
    (sequel : Sequel)
    (target : Phrase)
    (op : String) : Parser Phrase := do
  let start := target.range.start
  let _ ← advance
  if op == "=" then
    if !isPlainTarget target then failure
    let value ← rules.expression .nothing sequel
    phrase start (.assignment target value)
  else
    if !isTarget target then failure
    let value ← rules.expression .nothing sequel
    phrase start (.augmented op target value)

------------------------------------------------------------
-- Joints
------------------------------------------------------------

/- A binary operator with its right operand. -/
def binary
    (rules : Rules)
    (sequel : Sequel)
    (left : Phrase)
    (level : Nat) : Parser Phrase := do
  let token ← advance
  let right ← rules.expression (.binary level) sequel
  match token.lexeme with
  | .mark op => phrase left.range.start (.binary op left right)
  | .word op => phrase left.range.start (.binary op left right)
  | _ => failure

/-
  A comparison by an angle bracket. There is none where the text
  behind the bracket is a type.
-/
def compared
    (rules : Rules)
    (sequel : Sequel)
    (left : Phrase) : Parser Phrase := do
  let cursor ← get
  if Reading.of (cursor.ahead.drop 1) = .type then failure
  binary rules sequel left Binding.comparison

/-
  A choice, from its mark. A function in its middle may state what
  type it returns if a colon is left behind it. Where a type may
  follow the choice, a function of one name in its last part has
  the colon that would state the type.
-/
def choice
    (rules : Rules)
    (sequel : Sequel)
    (test : Phrase) : Parser Phrase := do
  mark "?"
  let branches (middle : Sequel) : Parser Phrase := do
    let consequence ← rules.expression .nothing middle
    mark ":"
    let alternative ← rules.expression .nothing sequel
    phrase test.range.start (.ternary test consequence alternative)
  let typeFollows : Parser Phrase := do
    if sequel != .ascribed then failure
    let consequence ← rules.expression .nothing .colon
    mark ":"
    if !(← seesSecond (·.isMark "=>")) then failure
    let alternative ← rules.expression .nothing .colon
    let stated : Parser Unit := do
      mark ":"
      rules.type
      mark ")"
    if !(← admits stated) then failure
    phrase test.range.start (.ternary test consequence alternative)
  let cursor ← get
  if sequel != .colon && cursor.ahead.any (·.isMark "=>") then
    typeFollows <|> branches .closer <|> branches .colon
  else branches .colon

/- A claim about the type of an operand. -/
def claimed
    (rules : Rules)
    (operand : Phrase) : Parser Phrase := do
  let start := operand.range.start
  if ← acceptMark "!" then foreign start "non_null_expression"
  else if ← acceptWord "as" then
    if ← acceptWord "const" then pure ()
    else rules.typing .anything
    foreign start "as_expression"
  else
    word "satisfies"
    rules.typing .anything
    foreign start "satisfies_expression"

/- What a joint makes of the operand in front of it. -/
def joined
    (rules : Rules)
    (sequel : Sequel)
    (left : Phrase) : Joint → Parser Phrase
  | .binary level => binary rules sequel left level
  | .angle => compared rules sequel left
  | .choice => choice rules sequel left
  | .step => do
    let _ ← advance
    foreign left.range.start "update_expression"
  | .claim => claimed rules left

/- Whether a token on a line of its own starts another statement. -/
def startsLine
    (token : Token) : Bool :=
  token.isMark "++" || token.isMark "--" || token.isMark "!" ||
    token.isWord "as" || token.isWord "satisfies"

/- One thing behind an operand that belongs to it. -/
def continued
    (rules : Rules)
    (pending : Pending)
    (sequel : Sequel)
    (left : Phrase) : Parser Phrase := do
  let token ← peek
  if sequel = .line && startsLine token then
    if ← seesLineBreak then failure
  match token.lexeme with
  | .mark text =>
    if text == "=" || augmentedOps.contains text then
      assigned rules sequel left text
    else
      match Joint.of? token with
      | some joint =>
        if pending.takes joint then joined rules sequel left joint
        else failure
      | none => suffix rules left
  | .word _ =>
    match Joint.of? token with
    | some joint =>
      if pending.takes joint then joined rules sequel left joint
      else failure
    | none => failure
  | _ => suffix rules left

------------------------------------------------------------
-- Type Arguments
------------------------------------------------------------

/-
  Whether an expression may end in front of some tokens: they start
  no other one, and no joint follows that it would have taken.
-/
def endsBefore
    (pending : Pending) : List Token → Bool
  | [] => true
  | token :: rest =>
    match Joint.of? token with
    | some joint =>
      if pending.takes joint then false
      else if token.isMark "!" then endsBefore .nothing rest
      else true
    | none =>
      match token.lexeme with
      | .mark text => [")", "]", "\x7d", ",", ":", ";"].contains text
      | .templateMiddle => true
      | .templateTail => true
      | _ => false

/-
  Type arguments behind an operand: a call, or the operand for
  those types. What looks like the call may be a function with a
  stated type, and then the brackets compare.
-/
def applied
    (rules : Rules)
    (sequel : Sequel)
    (left : Phrase) : Parser Phrase := do
  let cursor ← get
  if Reading.of (cursor.ahead.drop 1) = .value then failure
  typeArguments rules
  if ← seesMark "(" then
    let isArrow : Parser Bool := do
      if sequel != .colon && (← seesBehind ":") then
        admits (arrow rules sequel left.range.start)
      else pure false
    if ← isArrow then failure
    call rules left
  else foreign left.range.start "instantiation_expression"

------------------------------------------------------------
-- Expressions
------------------------------------------------------------

/-
  An operand with all behind it that belongs to it. An angle
  bracket opens type arguments if the expression goes on to its
  end with them; otherwise it compares.
-/
def extendUpTo
    (rules : Rules)
    (pending : Pending)
    (sequel : Sequel) : Nat → Phrase → Parser Phrase
  | 0, left => pure left
  | steps + 1, left => do
    let withTypes : Parser Phrase := do
      if !pending.takes .angle then failure
      let callee ← applied rules sequel left
      let whole ← extendUpTo rules pending sequel steps callee
      let cursor ← get
      let lineEnds ← seesLineEnd true
      if sequel = .line && lineEnds then pure whole
      else if endsBefore pending cursor.ahead then pure whole
      else failure
    let plainly : Parser Phrase := do
      match ← optional (continued rules pending sequel left) with
      | none => pure left
      | some longer => extendUpTo rules pending sequel steps longer
    withTypes <|> plainly

/- An expression, given what waits for it. -/
def expression
    (rules : Rules)
    (pending : Pending)
    (sequel : Sequel) : Parser Phrase := do
  let first ← operand rules sequel
  extendUpTo rules pending sequel (← get).ahead.length first

end SchemaLang.Grammar
