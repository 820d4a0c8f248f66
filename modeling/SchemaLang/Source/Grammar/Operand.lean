import SchemaLang.Source.Grammar.Typing

/-
  This file admits operands: literals, names, lists in brackets,
  functions, and what is written behind them.

  Key definitions include:
    * `Grammar.operand`
    * `Grammar.primary`
    * `Grammar.suffix`
    * `Grammar.target`
    * `Grammar.pattern`
    * `Grammar.objectMember`
    * `Grammar.arrowBody`
-/

namespace SchemaLang.Grammar

open SchemaLang.Parser

/- The phrase of a construct that the language has no use for. -/
def foreign
    (start : Point)
    (construct : String) : Parser Phrase :=
  phrase start (.foreign construct)

------------------------------------------------------------
-- Statements In Braces
------------------------------------------------------------

/- Statements between braces. -/
def block
    (rules : Rules) : Parser Unit := do
  mark "\x7b"
  let _ ← many rules.statement
  mark "\x7d"

------------------------------------------------------------
-- Lists
------------------------------------------------------------

/- Expressions with commas between them, taken as one. -/
def sequenceBefore
    (rules : Rules)
    (sequel : Sequel) : Parser Phrase := do
  let start ← start
  let first ← rules.expression .nothing sequel
  if ← seesMark "," then
    let last : Sequel := if sequel = .line then .line else .closer
    let _ ← many do
      mark ","
      rules.expression .nothing last
    foreign start "sequence_expression"
  else pure first

/- Expressions with commas between them and no colon behind. -/
def sequence
    (rules : Rules) : Parser Phrase :=
  sequenceBefore rules .closer

/- Whether a phrase is made of several expressions. -/
def isSequence
    (phrase : Phrase) : Bool :=
  match phrase.shape with
  | .foreign construct => construct == "sequence_expression"
  | _ => false

/- An element of an array, or an argument. -/
def element
    (rules : Rules) : Parser Phrase := do
  let start ← start
  if ← acceptMark "..." then
    let argument ← rules.value
    phrase start (.spread argument)
  else rules.value

/-
  What stands in parentheses, behind the opening one: an
  expression, which a type may follow, or a sequence.
-/
def enclosed
    (rules : Rules) : Parser (List (Part Phrase)) := do
  let front ← peek
  let inner ← sequenceBefore rules .ascribed
  let middle ← peek
  let stated : List (Part Phrase) ← do
    if isSequence inner then pure []
    else if ← acceptMark ":" then
      rules.type
      let type ← foreign middle.range.start "type_annotation"
      let back ← peek
      pure (.element type :: back.remarks.map .comment)
    else pure []
  mark ")"
  pure (front.remarks.map .comment ++
    .element inner :: middle.remarks.map .comment ++ stated)

------------------------------------------------------------
-- Objects
------------------------------------------------------------

/- The key of a member. -/
def key
    (rules : Rules) : Parser Phrase := do
  let token ← advance
  let start := token.range.start
  match token.lexeme with
  | .word text => phrase start (.name text)
  | .privateName _ => foreign start "private_property_identifier"
  | .quoted text => phrase start (.string text)
  | .number text => phrase start (.number text)
  | .mark text =>
    if text == "[" then
      let inner ← rules.value
      mark "]"
      phrase start (.computed inner)
    else failure
  | _ => failure

/- A key with a value. -/
def pair
    (rules : Rules) : Parser Phrase := do
  let start ← start
  let key ← key rules
  let colon ← peek
  mark ":"
  let front ← peek
  let value ← rules.value
  phrase start (.pair key value (colon.remarks ++ front.remarks))

/- A word that is both key and value. -/
def shorthand : Parser Phrase := do
  let start ← start
  let text ← anyWord
  if ← sees fun token => token.isMark "," || token.isMark "\x7d" then
    phrase start (.shorthand text)
  else failure

/- Words that may stand in front of a method. -/
def methodWords : List String :=
  ["public", "private", "protected", "static", "override", "readonly",
    "async", "get", "set"]

/- A method with its body. -/
def method
    (rules : Rules) : Parser Phrase := do
  let start ← start
  let _ ← many (modifier methodWords)
  let _ ← acceptMark "*"
  let _ ← key rules
  let _ ← acceptMark "?"
  signature rules
  block rules
  foreign start "method_definition"

/- A member of an object. -/
def objectMember
    (rules : Rules) : Parser Phrase := do
  if ← seesMark "..." then element rules
  else pair rules <|> shorthand <|> method rules

------------------------------------------------------------
-- Patterns
------------------------------------------------------------

/- A pattern that a default may follow. -/
def patternItem
    (rules : Rules) : Parser Phrase := do
  let pattern ← rules.pattern
  if ← acceptMark "=" then
    let _ ← rules.value
  pure pattern

/- A member of an object pattern. -/
def patternMember
    (rules : Rules) : Parser Phrase := do
  let start ← start
  if ← seesMark "..." then rules.pattern
  else
    let pair : Parser Unit := do
      let _ ← key rules
      mark ":"
      let _ ← patternItem rules
    let default : Parser Unit := do
      let _ ← anyWord
      if ← acceptMark "=" then
        let _ ← rules.value
    pair <|> default
    foreign start "pair_pattern"

/- A pattern in brackets or braces. -/
def bracketPattern
    (rules : Rules) : Parser Phrase := do
  let start ← start
  if ← acceptMark "[" then
    let _ ← parts "]" (patternItem rules)
    foreign start "array_pattern"
  else
    mark "\x7b"
    let _ ← parts "\x7d" (patternMember rules)
    foreign start "object_pattern"

------------------------------------------------------------
-- Functions
------------------------------------------------------------

/-
  Whether a token is a word that starts a statement or an operand.
  It is no key at the front of braces that may hold statements.
-/
def startsStatement
    (token : Token) : Bool :=
  match token.lexeme with
  | .word text =>
    ["abstract", "break", "class", "const", "continue", "debugger",
      "delete", "do", "enum", "false", "for", "function", "if", "import",
      "interface", "null", "return",
      "super", "switch", "this", "throw", "true", "try", "typeof",
      "undefined", "var", "void", "while", "with", "yield"].contains text
  | _ => false

/-
  Take the first word in the braces that open next as a name, be it
  a reserved one, if it starts no statement.
-/
def freeWord : Parser Unit := modify fun cursor =>
  match cursor.ahead with
  | brace :: ⟨.word text, range, remarks⟩ :: rest =>
    let token : Token := ⟨.word text, range, remarks⟩
    if reserved.contains text && !startsStatement token then
      { cursor with ahead := brace :: ⟨.word "_", range, remarks⟩ :: rest }
    else cursor
  | _ => cursor

/-
  Whether the braces that open next may be an object: they start
  with a key and a colon, with a spread or with a comma, or they
  hold nothing and are assigned to.
-/
def seesObject : Parser Bool := fun cursor =>
  let holds :=
    match cursor.ahead.drop 1 with
    | first :: second :: _ =>
      if first.isMark "\x7d" then second.isMark "="
      else
        first.isMark "..." || first.isMark "," || second.isMark ":" ||
          (first.isMark "[" &&
            (behind 0 (cursor.ahead.drop 1)).head?.any (·.isMark ":"))
    | _ => false
  some (holds, cursor)

/-
  Whether the braces that open next hold nothing or start with a
  word alone.
-/
def seesShorthand : Parser Bool := fun cursor =>
  let holds :=
    match cursor.ahead.drop 1 with
    | first :: second :: _ =>
      let isWord :=
        match first.lexeme with
        | .word _ => true
        | _ => false
      first.isMark "\x7d" ||
        (isWord && (second.isMark "," || second.isMark "\x7d"))
    | _ => false
  some (holds, cursor)

/-
  Statements in braces, kept as a construct, or a value that starts
  with a brace.
-/
def braced {α : Type}
    (rules : Rules)
    (keep : String → Parser α)
    (value : Parser α) : Parser α := do
  let statements : Parser α := do
    freeWord
    block rules
    keep "statement_block"
  if ← seesSecond startsStatement then statements
  else if ← seesObject then value <|> statements
  else if ← seesShorthand then statements
  else statements <|> value

/- The body of an arrow function. -/
def arrowBody
    (rules : Rules)
    (sequel : Sequel) : Parser Phrase := do
  let value := rules.expression .nothing sequel
  if ← seesMark "\x7b" then braced rules (foreign (← start)) value
  else value

/-
  An arrow function with parameters in parentheses. The arrow
  behind a type in parentheses is its own, if it can be.
-/
def arrow
    (rules : Rules)
    (sequel : Sequel)
    (start : Point) : Parser Phrase := do
  if ← seesMark "<" then typeParameters rules
  let params ← params rules
  let function (ending : Ending) : Parser Phrase := do
    if sequel != .colon then returns rules ending
    mark "=>"
    let body ← arrowBody rules sequel
    if ← seesMark "=>" then failure
    phrase start (.arrow params body)
  let cursor ← get
  let reach (ending : Ending) : Option Nat :=
    (returns rules ending cursor).map fun (_, rest) => rest.ahead.length
  if reach .arrow = reach .closer then function .closer
  else function .arrow <|> function .closer

/- An arrow function with one name in front of the arrow. -/
def nameArrow
    (rules : Rules)
    (sequel : Sequel)
    (start : Point) : Parser Phrase := do
  let point ← Parser.start
  let text ← name
  let param ← phrase point (.name text)
  mark "=>"
  let body ← arrowBody rules sequel
  phrase start (.arrow [param] body)

/- A function, from the word for it. -/
def function
    (rules : Rules)
    (start : Point) : Parser Phrase := do
  word "function"
  let generator ← acceptMark "*"
  let _ ← optional identifier
  signature rules
  block rules
  foreign start
    (if generator then "generator_function" else "function_expression")

/- A member of a class. -/
def classMember
    (rules : Rules) : Parser Unit := do
  if ← acceptMark ";" then pure ()
  else
    let words := methodWords ++ ["declare", "abstract", "accessor"]
    let initialBlock : Parser Unit := do
      word "static"
      block rules
    let finish (afterValue : Bool) : Parser Unit := do
      if ← acceptMark ";" then pure ()
      else if ← acceptMark "," then pure ()
      else if ← seesMark "\x7d" then pure ()
      else if ← seesLineEnd afterValue then pure ()
      else failure
    let method : Parser Unit := do
      let _ ← many (modifier words)
      let _ ← acceptMark "*"
      let _ ← key rules
      let _ ← acceptMark "?"
      signature rules
      if ← seesMark "\x7b" then block rules else finish false
    let field : Parser Unit := do
      let _ ← many (modifier words)
      let _ ← key rules
      if ← acceptMark "?" then pure ()
      else
        let _ ← acceptMark "!"
      ascription rules
      let valued ← acceptMark "="
      if valued then
        let _ ← rules.expression .nothing .line
      finish valued
    let index : Parser Unit := do
      indexSignature rules
      finish false
    initialBlock <|> method <|> index <|> field

/- A class, from the word for it. -/
def classPhrase
    (rules : Rules) : Parser Phrase := do
  let start ← start
  word "class"
  let _ ← optional do
    if ← seesWord "extends" then failure
    if ← seesWord "implements" then failure
    identifier
  if ← seesMark "<" then typeParameters rules
  if ← acceptWord "extends" then
    let _ ← rules.expression .unary .closer
    let _ ← optional (typeArguments rules)
  if ← acceptWord "implements" then
    let _ ← separated "," rules.type
  mark "\x7b"
  let _ ← many (classMember rules)
  mark "\x7d"
  foreign start "class"

------------------------------------------------------------
-- Primary Phrases
------------------------------------------------------------

/- A template with substitutions, behind its head. -/
def substitutions
    (rules : Rules)
    (start : Point) : Parser Phrase := do
  substituted (discard (sequence rules))
  foreign start "template_string"

/- A name, or an arrow function that starts with one. -/
def nameOrArrow
    (rules : Rules)
    (sequel : Sequel) : Parser Phrase := do
  let start ← start
  if ← seesSecond (·.isMark "=>") then
    if ← seesWord "undefined" then failure
    nameArrow rules sequel start
  else
    let text ← name
    phrase start (.name text)

/- Whether a token is a word that claims a type. -/
def isClaim
    (token : Token) : Bool :=
  token.isWord "as" || token.isWord "satisfies"

/-
  A function behind the word that makes it asynchronous, or that
  word as a name.
-/
def asyncPhrase
    (rules : Rules)
    (sequel : Sequel) : Parser Phrase := do
  let start ← start
  let function : Parser Phrase := do
    word "async"
    if ← sees isClaim then failure
    function rules start <|> nameArrow rules sequel start
      <|> arrow rules sequel start
  function <|> nameOrArrow rules sequel

/-
  What the word for new objects starts. It is a name where nothing
  follows that an object may be made from.
-/
def newPhrase
    (rules : Rules)
    (sequel : Sequel) : Parser Phrase := do
  let start ← start
  if ← seesSecond (·.isMark ".") then
    word "new"
    mark "."
    word "target"
    foreign start "meta_property"
  else if ← seesSecond (·.isMark "/") then failure
  else if ← seesSecond startsExpression then
    word "new"
    let _ ← rules.target
    if ← seesMark "<" then typeArguments rules
    if ← acceptMark "(" then
      let _ ← parts ")" (element rules)
    foreign start "new_expression"
  else nameOrArrow rules sequel

/-
  What the word for imports starts. It is called, with types or
  without, or has a member.
-/
def importPhrase
    (rules : Rules) : Parser Phrase := do
  let start ← start
  word "import"
  let typedCall : Parser Unit := do
    typeArguments rules
    mark "("
  if ← acceptMark "." then
    word "meta"
    foreign start "meta_property"
  else if ← seesMark "(" then foreign start "import"
  else if ← seesMark "?." then foreign start "import"
  else if ← admits typedCall then foreign start "import"
  else failure

/- The name of a block of declarations, and the block perhaps. -/
def namedBlock
    (rules : Rules) : Parser Unit := do
  let dotted : Parser Unit := do
    identifier
    whileSees (·.isMark ".") do
      mark "."
      identifier
  discard quoted <|> dotted
  if ← seesMark "\x7b" then block rules

/- A named block of declarations, from the word for it. -/
def namespacePhrase
    (rules : Rules)
    (sequel : Sequel) : Parser Phrase := do
  let start ← start
  if sequel = .line && (← standsAlone) then failure
  word "namespace"
  if ← sees isClaim then failure
  namedBlock rules
  foreign start "internal_module"

/-
  Whether the next word qualifies a parameter, and so is no operand
  in parentheses: an operand may start behind it.
-/
def seesQualifier : Parser Bool := do
  let qualifies (token : Token) : Bool :=
    ["public", "private", "protected", "override"].any fun text =>
      token.isWord text
  let starts (token : Token) : Bool :=
    startsExpression token || token.isMark "/"
  pure ((← sees qualifies) && (← seesSecond starts))

/- A list in parentheses, brackets or braces. -/
def bracketed
    (rules : Rules)
    (sequel : Sequel) : Parser Phrase := do
  let start ← start
  if ← seesMark "(" then
    if ← seesBehind "=>" then arrow rules sequel start
    else
      let typedArrow : Parser Phrase := do
        if sequel != .colon && (← seesBehind ":") then arrow rules sequel start
        else failure
      let parentheses : Parser Phrase := do
        mark "("
        if ← seesQualifier then failure
        let parts ← enclosed rules
        phrase start (.parentheses parts)
      typedArrow <|> parentheses
  else if ← seesBehind "=" then bracketPattern rules
  else if ← acceptMark "[" then
    let elements ← parts "]" (element rules)
    phrase start (.array elements)
  else
    mark "\x7b"
    let members ← parts "\x7d" (objectMember rules)
    phrase start (.object members)

/- A word, or what the word starts. -/
def wordPhrase
    (rules : Rules)
    (sequel : Sequel)
    (text : String) : Parser Phrase := do
  let start ← start
  let leaf (shape : Shape) : Parser Phrase := do
    let _ ← advance
    phrase start shape
  if text == "null" then leaf .null
  else if text == "true" then leaf (.boolean true)
  else if text == "false" then leaf (.boolean false)
  else if text == "this" || text == "super" then leaf (.foreign text)
  else if text == "function" then function rules start
  else if text == "class" then classPhrase rules
  else if text == "async" then asyncPhrase rules sequel
  else if text == "new" then newPhrase rules sequel
  else if text == "import" then importPhrase rules
  else nameOrArrow rules sequel

/- An operand without what is written behind it. -/
def primary
    (rules : Rules)
    (sequel : Sequel) : Parser Phrase := do
  let token ← peek
  let start := token.range.start
  let leaf (shape : Shape) : Parser Phrase := do
    let _ ← advance
    phrase start shape
  match token.lexeme with
  | .word text => wordPhrase rules sequel text
  | .number text => leaf (.number text)
  | .quoted text => leaf (.string text)
  | .template text => leaf (.template text)
  | .templateHead =>
    let _ ← advance
    substitutions rules start
  | .regex pattern flags => leaf (.regex pattern flags)
  | .privateName _ =>
    if ← seesSecond (·.isWord "in") then
      leaf (.foreign "private_property_identifier")
    else failure
  | .mark text =>
    if text == "(" || text == "[" || text == "\x7b" then
      bracketed rules sequel
    else failure
  | _ => failure

------------------------------------------------------------
-- Suffixes
------------------------------------------------------------

/- Constructs that end with an expression, or wait for a call. -/
def openConstructs : List String :=
  ["as_expression", "await_expression", "import",
    "instantiation_expression", "internal_module", "new_expression",
    "satisfies_expression", "type_assertion", "update_expression",
    "yield_expression"]

/- Whether an operand is complete in itself. -/
def isComplete
    (phrase : Phrase) : Bool :=
  match phrase.shape with
  | .binary _ _ _ => false
  | .unary _ _ => false
  | .assignment _ _ => false
  | .augmented _ _ _ => false
  | .ternary _ _ _ => false
  | .foreign construct => !openConstructs.contains construct
  | _ => true

/-
  Whether an operand may be called with the optional chain mark. The
  mark belongs to the expression that a function ends with.
-/
def takesChain
    (phrase : Phrase) : Bool :=
  match phrase.shape with
  | .arrow _ body => body.construct == "statement_block"
  | _ => isComplete phrase

/- Whether a template may follow an operand. -/
def takesTemplate
    (phrase : Phrase) : Bool :=
  isComplete phrase || phrase.construct == "new_expression"

/- The name of a member, with its place. -/
def property : Parser (String × Range) := do
  let token ← advance
  match token.lexeme with
  | .word text => pure (text, token.range)
  | .privateName text => pure (text, token.range)
  | _ => failure

/- A call with its arguments, from the opening parenthesis. -/
def call
    (rules : Rules)
    (callee : Phrase) : Parser Phrase := do
  mark "("
  let arguments ← parts ")" (element rules)
  phrase callee.range.start (.call callee arguments)

/- A member or an index, from the opening mark. -/
def access
    (rules : Rules)
    (object : Phrase) : Parser Phrase := do
  let start := object.range.start
  if ← acceptMark "[" then
    let key ← sequence rules
    mark "]"
    phrase start (.index object key)
  else
    mark "."
    let (text, place) ← property
    phrase start (.member object text place)

/- What an optional chain mark leads to. -/
def chained
    (rules : Rules)
    (object : Phrase) : Parser Phrase := do
  mark "?."
  if ← seesMark "[" then access rules object
  else if ← seesMark "(" then
    if takesChain object then call rules object else failure
  else if ← seesMark "<" then
    if !takesChain object then failure
    typeArguments rules
    call rules object
  else
    let (text, place) ← property
    phrase object.range.start (.member object text place)

/- A template behind an operand. -/
def tag
    (rules : Rules)
    (operand : Phrase) : Parser Phrase := do
  let token ← advance
  match token.lexeme with
  | .template _ => phrase operand.range.start (.tagged token.range)
  | .templateHead =>
    let template ← substitutions rules token.range.start
    phrase operand.range.start (.tagged template.range)
  | _ => failure

/- What is written behind an operand to name a part of it. -/
def part
    (rules : Rules)
    (operand : Phrase) : Parser Phrase := do
  let token ← peek
  match token.lexeme with
  | .template _ =>
    if takesTemplate operand then tag rules operand else failure
  | .templateHead =>
    if takesTemplate operand then tag rules operand else failure
  | .mark text =>
    if text == "." || text == "[" then access rules operand
    else if text == "?." then chained rules operand
    else failure
  | _ => failure

/- A part of an operand, or a call of it. -/
def suffix
    (rules : Rules)
    (operand : Phrase) : Parser Phrase := do
  if ← seesMark "(" then call rules operand
  else part rules operand

/- All that a step finds behind an operand. -/
def stepsUpTo
    (step : Phrase → Parser Phrase)
    (operand : Phrase) : Nat → Parser Phrase
  | 0 => pure operand
  | steps + 1 => do
    match ← optional (step operand) with
    | none => pure operand
    | some longer => stepsUpTo step longer steps

/- What a new object is made from. -/
def target
    (rules : Rules) : Parser Phrase := do
  let plain ← primary rules .closer
  let operand ← stepsUpTo (part rules) plain (← get).ahead.length
  if isComplete operand then pure operand else failure

/- A pattern of a parameter or an assignment. -/
def pattern
    (rules : Rules) : Parser Phrase := do
  let start ← start
  if ← acceptMark "..." then
    let _ ← rules.pattern
    foreign start "rest_pattern"
  else
    let step (operand : Phrase) : Parser Phrase := do
      if ← acceptMark "!" then
        foreign operand.range.start "non_null_expression"
      else suffix rules operand
    let place : Parser Phrase := do
      let plain ← primary rules .colon
      let target ← stepsUpTo step plain (← get).ahead.length
      match target.shape with
      | .name _ => pure target
      | .member _ _ _ => pure target
      | .index _ _ => pure target
      | .foreign construct =>
        if construct == "non_null_expression" then pure target else failure
      | _ => failure
    let isList (token : Token) : Bool :=
      token.isMark "[" || token.isMark "\x7b"
    let hasParts ← [".", "?.", "[", "(", "!"].anyM seesBehind
    if (← sees isList) && !hasParts then bracketPattern rules
    else place

------------------------------------------------------------
-- Operands
------------------------------------------------------------

/- Operators in front of an operand. -/
def unaryOps : List String :=
  ["!", "~", "-", "+", "typeof", "void", "delete"]

/- What is yielded, behind the word for it. -/
def yielded
    (rules : Rules)
    (sequel : Sequel) : Parser Unit := do
  if ← seesMark "/" then failure
  if (← acceptMark "*") || (← sees startsExpression) then
    let _ ← rules.expression .nothing sequel

/- A function with type parameters, or a type and an operand. -/
def asserted
    (rules : Rules)
    (sequel : Sequel)
    (start : Point) : Parser Phrase := do
  let assertion : Parser Phrase := do
    typeArguments rules
    let _ ← rules.expression .assertion sequel
    foreign start "type_assertion"
  arrow rules sequel start <|> assertion

/- An operand, with the operators in front of it. -/
def operand
    (rules : Rules)
    (sequel : Sequel) : Parser Phrase := do
  let token ← peek
  let start := token.range.start
  let text :=
    match token.lexeme with
    | .mark text => text
    | .word text => text
    | _ => ""
  if unaryOps.contains text then
    let _ ← advance
    let argument ← rules.expression .unary sequel
    phrase start (.unary text argument)
  else if text == "++" || text == "--" then
    let _ ← advance
    let _ ← rules.expression .step sequel
    foreign start "update_expression"
  else if text == "await" then
    let awaited : Parser Phrase := do
      if ← seesSecond (·.isMark "<") then failure
      if !(← seesSecond startsExpression) then failure
      let _ ← advance
      let _ ← rules.expression .await sequel
      foreign start "await_expression"
    awaited <|> primary rules sequel
  else if text == "yield" then
    let _ ← advance
    yielded rules sequel
    foreign start "yield_expression"
  else if text == "<" then asserted rules sequel start
  else if text == "namespace" then
    namespacePhrase rules sequel <|> primary rules sequel
  else primary rules sequel

end SchemaLang.Grammar
