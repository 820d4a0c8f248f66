import SchemaLang.Source.Grammar.Angle

/-
  This file admits the types that may be written beside
  expressions. Nothing is kept of them.

  Key definitions include:
    * `Grammar.typing`
    * `Grammar.typeArguments`
    * `Grammar.typeParameters`
    * `Grammar.params`
    * `Grammar.signature`
-/

namespace SchemaLang.Grammar

open SchemaLang.Parser

------------------------------------------------------------
-- Type Arguments
------------------------------------------------------------

/-
  Take the angle bracket that closes type arguments. A longer mark
  is cut.
-/
def closeAngle : Parser Unit := do
  let token ← peek
  match token.lexeme with
  | .mark text =>
    match text.toList with
    | ['>'] =>
      let _ ← advance
      pure ()
    | '>' :: rest =>
      let point := token.range.start.next '>'
      let cut := ⟨.mark (String.ofList rest), ⟨point, token.range.stop⟩, []⟩
      modify fun cursor => ⟨point, cut :: cursor.ahead.drop 1⟩
    | _ => failure
  | _ => failure

/- Type arguments in angle brackets. -/
def typeArguments
    (rules : Rules) : Parser Unit := do
  mark "<"
  let _ ← separated "," rules.type
  let _ ← acceptMark ","
  closeAngle

/-
  Words that start a longer type, and so are no names of types.
-/
def typeOperators : List String :=
  ["abstract", "infer", "keyof", "new", "readonly", "unique"]

/- A name that is new to a type: it has no meaning as a type. -/
def freshName : Parser Unit := do
  let text ← name
  if typeOperators.contains text then failure
  if basicTypes.contains text || text == "undefined" then failure

/- One type parameter. -/
def typeParameter
    (rules : Rules) : Parser Unit := do
  let _ ← acceptWord "const"
  freshName
  if ← accept fun token => token.isWord "extends" || token.isMark ":" then
    rules.type
  if ← acceptMark "=" then rules.type

/- Type parameters in angle brackets. -/
def typeParameters
    (rules : Rules) : Parser Unit := do
  mark "<"
  let _ ← separated "," (typeParameter rules)
  let _ ← acceptMark ","
  closeAngle

------------------------------------------------------------
-- Parameters
------------------------------------------------------------

/- A type behind a colon, if there is one. -/
def ascription
    (rules : Rules) : Parser Unit := do
  if ← acceptMark ":" then rules.type

/- Words that may stand in front of a parameter. -/
def modifiers : List String :=
  ["public", "private", "protected", "override", "readonly"]

/- A word that qualifies the declaration behind it. -/
def modifier
    (words : List String) : Parser Unit := do
  let isModifier (token : Token) : Bool :=
    words.any fun text => token.isWord text
  let continues (token : Token) : Bool :=
    match token.lexeme with
    | .word _ => true
    | .privateName _ => true
    | .quoted _ => true
    | .number _ => true
    | .mark text => text == "[" || text == "\x7b" || text == "*"
    | _ => false
  if (← sees isModifier) && (← seesSecond continues) then
    let _ ← advance
    pure ()
  else failure

/- One parameter: a pattern, a type and a default. -/
def param
    (rules : Rules) : Parser Phrase := do
  let _ ← many (modifier modifiers)
  let start ← start
  let pattern ← do
    if ← acceptWord "this" then phrase start (.foreign "this")
    else rules.pattern
  let _ ← acceptMark "?"
  ascription rules
  if ← acceptMark "=" then
    let _ ← rules.value
  pure pattern

/- Parameters in parentheses. -/
def params
    (rules : Rules) : Parser (List Phrase) := do
  mark "("
  items ")" (param rules)

/- Take the subject of a test or an assertion. -/
def subject : Parser String := do
  let text ← anyWord
  if text == "this" || text == "void" then pure text
  else if reserved.contains text || text == "new" || text == "unique" then
    failure
  else pure text

/-
  What is returned: a type, a test or an assertion. What is asserted
  without a test is no type.
-/
def outcome
    (rules : Rules)
    (ending : Ending) : Parser Unit := do
  if ← acceptWord "asserts" then
    let text ← subject
    if ← acceptWord "is" then rules.typing ending
    else if basicTypes.contains text then failure
  else
    let tested : Parser Unit := do
      let text ← subject
      if typeOperators.contains text || text == "undefined" then failure
      word "is"
      rules.typing ending
    tested <|> rules.typing ending

/- What a function returns, behind a colon. -/
def returns
    (rules : Rules)
    (ending : Ending) : Parser Unit := do
  if ← acceptMark ":" then outcome rules ending

/- Type parameters, parameters and what is returned. -/
def signature
    (rules : Rules) : Parser Unit := do
  if ← seesMark "<" then typeParameters rules
  let _ ← params rules
  returns rules .closer

------------------------------------------------------------
-- Types
------------------------------------------------------------

/- The name of a member in a type or a class. -/
def memberName
    (rules : Rules) : Parser Unit := do
  let token ← advance
  match token.lexeme with
  | .word _ => pure ()
  | .privateName _ => pure ()
  | .quoted _ => pure ()
  | .number _ => pure ()
  | .mark text =>
    if text == "[" then
      let _ ← rules.value
      mark "]"
    else failure
  | _ => failure

/- A key that stands for all keys of a type. -/
def indexSignature
    (rules : Rules) : Parser Unit := do
  let isSign (token : Token) : Bool := token.isMark "-" || token.isMark "+"
  let _ ← accept isSign
  let _ ← optional (modifier ["readonly"])
  mark "["
  let text ← name
  if ← acceptWord "in" then
    rules.type
    if ← acceptWord "as" then rules.type
  else
    if valueWords.contains text || valueTypes.contains text then failure
    mark ":"
    rules.type
  mark "]"
  let _ ← accept isSign
  let _ ← acceptMark "?"
  mark ":"
  rules.type

/- A member of an object type. -/
def typeMember
    (rules : Rules) : Parser Unit :=
  indexSignature rules
    <|> signature rules
    <|> (do
      let _ ← acceptWord "abstract"
      word "new"
      signature rules)
    <|> (do
      if ← seesWord "abstract" then failure
      let _ ← many (modifier ["readonly", "static", "get", "set", "async"])
      memberName rules
      let _ ← acceptMark "?"
      if ← sees fun token => token.isMark "(" || token.isMark "<" then
        signature rules
      else ascription rules)

/- The separator behind a member of an object type. -/
def typeSeparator : Parser Unit := do
  if ← acceptMark ";" then pure ()
  else if ← acceptMark "," then pure ()
  else if ← seesMark "\x7d" then pure ()
  else if ← seesLineEnd false then pure ()
  else failure

/- The members of an object type behind its opening brace. -/
def objectType
    (rules : Rules) : Parser Unit := do
  if ← acceptMark "," then pure ()
  else
    let _ ← acceptMark ";"
  let _ ← many do
    typeMember rules
    typeSeparator
  mark "\x7d"

/-
  Fail where the front of what follows can only be a value, though
  a type is needed.
-/
def refuseValue
    (setting : Setting) : Parser Unit := do
  let cursor ← get
  if Reading.ofFront setting cursor.ahead.length cursor.ahead = .value then
    failure

/- An element of a tuple type. -/
def tupleItem
    (rules : Rules) : Parser Unit := do
  if ← acceptMark "..." then refuseValue .element
  let label : Parser Unit := do
    freshName
    let _ ← acceptMark "?"
    mark ":"
  let _ ← optional label
  rules.type
  let _ ← acceptMark "?"

/- Whether a token is a word that no type operator precedes. -/
def isTypeOperator
    (token : Token) : Bool :=
  ["abstract", "infer", "new", "readonly"].any fun text => token.isWord text

/- The name of a type. -/
def typeName : Parser Unit := do
  let text ← name
  if typeOperators.contains text then failure

/- A dotted name with type arguments. -/
def namedType
    (rules : Rules) : Parser Unit := do
  typeName
  whileSees (·.isMark ".") do
    mark "."
    identifier
  if ← seesMark "<" then typeArguments rules

/- A value in a type position, behind the word for it. -/
def typeQuery
    (rules : Rules) : Parser Unit := do
  if ← acceptWord "this" then pure ()
  else identifier
  let continues (token : Token) : Bool :=
    ["(", ".", "?."].any fun text => token.isMark text
  whileSees continues do
    if ← acceptMark "(" then
      let _ ← parts ")" rules.value
    else
      mark "." <|> mark "?."
      let isPrivate (token : Token) : Bool :=
        match token.lexeme with
        | .privateName _ => true
        | _ => false
      if ← accept isPrivate then pure () else identifier
  if ← seesMark "<" then typeArguments rules

/-
  A function type. Parentheses in front of all else hold no
  parameters if they start with what can only be a type.
-/
def functionType
    (rules : Rules)
    (ending : Ending) : Parser Unit := do
  if ← seesMark "(" then
    let cursor ← get
    let inner := cursor.ahead.drop 1
    if Reading.ofFront .group inner.length inner = .type then failure
  let _ ← acceptWord "abstract"
  let _ ← acceptWord "new"
  if ← seesMark "<" then typeParameters rules
  let _ ← params rules
  mark "=>"
  outcome rules ending

/- What stands in a template, up to its tail. -/
def substitutedUpTo
    (item : Parser Unit) : Nat → Parser Unit
  | 0 => failure
  | steps + 1 => do
    item
    let token ← advance
    match token.lexeme with
    | .templateMiddle => substitutedUpTo item steps
    | .templateTail => pure ()
    | _ => failure

/- What stands in a template, behind its head. -/
def substituted
    (item : Parser Unit) : Parser Unit := do
  substitutedUpTo item (← get).ahead.length

/- A type that is taken from another file. -/
def importedType
    (rules : Rules) : Parser Unit := do
  word "import"
  mark "("
  let _ ← parts ")" rules.value
  whileSees (·.isMark ".") do
    mark "."
    identifier

/- A type that a word starts. -/
def wordType
    (rules : Rules)
    (ending : Ending)
    (text : String) : Parser Unit := do
  let literals := ["const", "false", "null", "this", "true", "undefined"]
  if literals.contains text || basicTypes.contains text then
    let _ ← advance
    pure ()
  else if text == "typeof" then
    let _ ← advance
    typeQuery rules
  else if text == "import" then importedType rules
  else if text == "unique" then
    let _ ← advance
    word "symbol"
  else if text == "infer" then
    let _ ← advance
    identifier
    let _ ← optional do
      word "extends"
      rules.typing ending
  else if text == "keyof" then
    let _ ← advance
    if ← sees isTypeOperator then failure
    if ending != .arrow && (← admits (functionType rules ending)) then
      failure
    rules.typing ending
  else if text == "readonly" then
    let _ ← advance
    rules.typing ending
  else namedType rules

/- A type that no operator joins with others. -/
def plainType
    (rules : Rules)
    (ending : Ending) : Parser Unit := do
  let token ← peek
  match token.lexeme with
  | .number _ | .quoted _ | .template _ =>
    let _ ← advance
    pure ()
  | .templateHead =>
    let _ ← advance
    substituted rules.type
  | .mark text =>
    let _ ← advance
    if text == "(" then
      refuseValue .group
      rules.type
      mark ")"
    else if text == "[" then
      let _ ← items "]" (tupleItem rules)
      pure ()
    else if text == "\x7b" then objectType rules
    else if text == "-" || text == "+" then
      let _ ← number
      pure ()
    else if text == "?" || text == "??" then rules.typing ending
    else if text == "*" then pure ()
    else failure
  | .word text => wordType rules ending text
  | _ => failure

/- A type with brackets behind it. -/
def suffixedType
    (rules : Rules)
    (ending : Ending) : Parser Unit := do
  plainType rules ending
  whileSees (·.isMark "[") do
    mark "["
    if ← acceptMark "]" then pure ()
    else
      rules.type
      mark "]"

/-
  Types joined by bars or ampersands. Two of them in a row are
  taken as well, save where they may join expressions.
-/
def joinedType
    (rules : Rules)
    (ending : Ending) : Parser Unit := do
  let isJoint (token : Token) : Bool :=
    ["|", "&", "||", "&&"].any fun text => token.isMark text
  let joins (token : Token) : Bool :=
    if ending = .anything then token.isMark "|" || token.isMark "&"
    else isJoint token
  let part : Parser Unit := do
    whileSees isJoint (discard advance)
    if ending = .arrow then suffixedType rules ending
    else functionType rules ending <|> suffixedType rules ending
  part
  whileSees joins part

/- A type. -/
def typing
    (rules : Rules)
    (ending : Ending) : Parser Unit := do
  joinedType rules ending
  let _ ← optional do
    word "extends"
    rules.type
    mark "?"
    rules.type
    mark ":"
    rules.typing ending

end SchemaLang.Grammar
