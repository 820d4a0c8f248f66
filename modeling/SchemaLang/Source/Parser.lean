import SchemaLang.Source.Outline
import SchemaLang.Source.Token

/-
  This file defines parsers: functions that take tokens from the
  front of a list, or fail and take none.

  Key definitions include:
    * `Cursor`
    * `Parser`
    * `Parser.many`
    * `Parser.parts`
-/

namespace SchemaLang

/- The tokens ahead, and the end of the last one taken. -/
structure Cursor where
  last : Point := {}
  ahead : List Token

abbrev Parser := StateT Cursor Option

namespace Token

/- Whether a token is a mark. -/
def isMark
    (token : Token)
    (text : String) : Bool :=
  token.lexeme == .mark text

/- Whether a token is a word. -/
def isWord
    (token : Token)
    (text : String) : Bool :=
  token.lexeme == .word text

end Token

namespace Parser

------------------------------------------------------------
-- Single Tokens
------------------------------------------------------------

/- The next token, which is not taken. -/
def peek : Parser Token := fun cursor =>
  match cursor.ahead with
  | [] => none
  | token :: _ => some (token, cursor)

/- Take a token. -/
def advance : Parser Token := fun cursor =>
  match cursor.ahead with
  | [] => none
  | token :: rest => some (token, ⟨token.range.stop, rest⟩)

/- Whether the next token, if there is one, has a property. -/
def sees
    (holds : Token → Bool) : Parser Bool := fun cursor =>
  some (cursor.ahead.head?.any holds, cursor)

/- Whether the next token is a mark. -/
def seesMark
    (text : String) : Parser Bool :=
  sees (·.isMark text)

/- Whether the next token is a word. -/
def seesWord
    (text : String) : Parser Bool :=
  sees (·.isWord text)

/- Take the next token if it has a property. -/
def accept
    (holds : Token → Bool) : Parser Bool := do
  if ← sees holds then
    let _ ← advance
    pure true
  else pure false

/- Take a mark if it is next. -/
def acceptMark
    (text : String) : Parser Bool :=
  accept (·.isMark text)

/- Take a word if it is next. -/
def acceptWord
    (text : String) : Parser Bool :=
  accept (·.isWord text)

/- Take a mark. -/
def mark
    (text : String) : Parser Unit := do
  if ← acceptMark text then pure () else failure

/- Take a word. -/
def word
    (text : String) : Parser Unit := do
  if ← acceptWord text then pure () else failure

/- Whether a line ends in front of the next token. -/
def seesLineBreak : Parser Bool := fun cursor =>
  match cursor.ahead with
  | [] => some (true, cursor)
  | token :: _ => some (cursor.last.row < token.range.start.row, cursor)

------------------------------------------------------------
-- Places
------------------------------------------------------------

/- Where the next token starts. -/
def start : Parser Point := do
  let token ← peek
  pure token.range.start

/- Where the last token taken stops. -/
def lastPoint : Parser Point := fun cursor =>
  some (cursor.last, cursor)

/- The phrase from a point to the last token taken. -/
def phrase
    (start : Point)
    (shape : Shape) : Parser Phrase := fun cursor =>
  some (⟨⟨start, cursor.last⟩, shape⟩, cursor)

------------------------------------------------------------
-- Repetition
------------------------------------------------------------

/- Parse as often as it goes, at most as many times as stated. -/
def manyUpTo {α : Type}
    (item : Parser α) : Nat → Parser (List α)
  | 0 => pure []
  | steps + 1 => do
    match ← optional item with
    | none => pure []
    | some first =>
      let rest ← manyUpTo item steps
      pure (first :: rest)

/- Parse as often as it goes. -/
def many {α : Type}
    (item : Parser α) : Parser (List α) := do
  manyUpTo item (← get).ahead.length

/- Parse as long as the next token has a property. -/
def whileSeesUpTo
    (holds : Token → Bool)
    (item : Parser Unit) : Nat → Parser Unit
  | 0 => pure ()
  | steps + 1 => do
    if ← sees holds then
      item
      whileSeesUpTo holds item steps

/- Parse as long as the next token has a property. -/
def whileSees
    (holds : Token → Bool)
    (item : Parser Unit) : Parser Unit := do
  whileSeesUpTo holds item (← get).ahead.length

/- One or more items with a separator between them. -/
def separated {α : Type}
    (separator : String)
    (item : Parser α) : Parser (List α) := do
  let first ← item
  let rest ← many do
    mark separator
    item
  pure (first :: rest)

/- Items, each followed by a comma or the closing mark. -/
def itemsUpTo {α : Type}
    (closer : String)
    (item : Parser α) : Nat → Parser (List α)
  | 0 => failure
  | steps + 1 => do
    if ← acceptMark closer then pure []
    else
      let first ← item
      if ← acceptMark closer then pure [first]
      else
        mark ","
        let rest ← itemsUpTo closer item steps
        pure (first :: rest)

/- Items up to a closing mark; a comma may stand before it. -/
def items {α : Type}
    (closer : String)
    (item : Parser α) : Parser (List α) := do
  itemsUpTo closer item (← get).ahead.length

/-
  The parts of a list up to its closing mark. Two elements have a
  comma between them; other commas may stand anywhere.
-/
def partsUpTo
    (closer : String)
    (item : Parser Phrase) : Nat → Bool → Parser (List (Part Phrase))
  | 0, _ => failure
  | steps + 1, closed => do
    let token ← peek
    let comments := token.remarks.map Part.comment
    if ← acceptMark closer then pure comments
    else if ← acceptMark "," then
      let rest ← partsUpTo closer item steps false
      pure (comments ++ .comma :: rest)
    else if closed then failure
    else
      let element ← item
      let rest ← partsUpTo closer item steps true
      pure (comments ++ .element element :: rest)

/- The parts of a list up to its closing mark. -/
def parts
    (closer : String)
    (item : Parser Phrase) : Parser (List (Part Phrase)) := do
  partsUpTo closer item ((← get).ahead.length + 1) false

------------------------------------------------------------
-- Looking Ahead
------------------------------------------------------------

/- Whether a token opens a bracket. -/
def isOpener
    (token : Token) : Bool :=
  match token.lexeme with
  | .mark text => text == "(" || text == "[" || text == "\x7b"
  | .templateHead => true
  | _ => false

/- Whether a token closes a bracket. -/
def isCloser
    (token : Token) : Bool :=
  match token.lexeme with
  | .mark text => text == ")" || text == "]" || text == "\x7d"
  | .templateTail => true
  | _ => false

/- The tokens behind the bracket that closes the open ones. -/
def behind : Nat → List Token → List Token
  | _, [] => []
  | depth, token :: rest =>
    if isOpener token then behind (depth + 1) rest
    else if isCloser token then
      if depth ≤ 1 then rest else behind (depth - 1) rest
    else behind depth rest

/- Whether the brackets that open next are followed by a mark. -/
def seesBehind
    (text : String) : Parser Bool := fun cursor =>
  some ((behind 0 cursor.ahead).head?.any (·.isMark text), cursor)

/- Whether a parser would succeed; nothing is taken. -/
def admits {α : Type}
    (item : Parser α) : Parser Bool := fun cursor =>
  some ((item cursor).isSome, cursor)

/- Whether the token after the next one has a property. -/
def seesSecond
    (holds : Token → Bool) : Parser Bool := fun cursor =>
  some ((cursor.ahead.drop 1).head?.any holds, cursor)

end Parser

end SchemaLang
