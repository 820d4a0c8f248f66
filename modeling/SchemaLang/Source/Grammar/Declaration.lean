import SchemaLang.Source.Grammar.Expression

/-
  This file admits declarations, and the ends of statements. Nothing
  is kept of them.

  Key definitions include:
    * `Grammar.finish`
    * `Grammar.declarators`
    * `Grammar.declaration`
-/

namespace SchemaLang.Grammar

open SchemaLang.Parser

------------------------------------------------------------
-- Ends
------------------------------------------------------------

/-
  The end of a statement: a semicolon, or a place for one. Behind a
  value, fewer marks start a new statement.
-/
def finish
    (afterValue : Bool) : Parser Unit := do
  if ← acceptMark ";" then pure ()
  else if ← seesMark "\x7d" then pure ()
  else if ← seesLineEnd afterValue then pure ()
  else failure

/- A statement that is no expression. -/
def otherStatement
    (start : Point)
    (construct : String) : Parser Sentence := do
  pure (.other construct ⟨start, ← lastPoint⟩)

/- Take a semicolon, or what stands for one, if it is there. -/
def acceptFinish : Parser Unit :=
  discard (optional (finish true))

------------------------------------------------------------
-- Variables
------------------------------------------------------------

/- A name that is declared, or a pattern of names. -/
def declaredName
    (rules : Rules) : Parser Unit :=
  identifier <|> discard (bracketPattern rules)

/- A declared variable; whether it has a value. -/
def declarator
    (rules : Rules) : Parser Bool := do
  let definite : Parser Bool := do
    identifier
    mark "!"
    mark ":"
    rules.type
    pure false
  let valued : Parser Bool := do
    declaredName rules
    ascription rules
    if ← acceptMark "=" then
      let _ ← rules.expression .nothing .line
      pure true
    else pure false
  if ← seesSecond (·.isMark "!") then definite else valued

/- Declared variables; whether the last one has a value. -/
def declarators
    (rules : Rules) : Parser Bool := do
  word "var" <|> word "let" <|> word "const"
  let valued ← separated "," (declarator rules)
  pure (valued.getLastD false)

------------------------------------------------------------
-- Types And Functions
------------------------------------------------------------

/- Another name for a type. -/
def typeAlias
    (rules : Rules) : Parser Unit := do
  word "type"
  identifier
  if ← seesMark "<" then typeParameters rules
  mark "="
  rules.type
  finish false

/- A named object type. -/
def interfaceType
    (rules : Rules) : Parser Unit := do
  word "interface"
  identifier
  if ← seesMark "<" then typeParameters rules
  if ← acceptWord "extends" then
    discard (separated "," (namedType rules))
  mark "\x7b"
  objectType rules

/- A type made of named constants. -/
def enumeration
    (rules : Rules) : Parser Unit := do
  let _ ← acceptWord "const"
  word "enum"
  identifier
  mark "\x7b"
  let constant : Parser Unit := do
    memberName rules
    if ← acceptMark "=" then discard rules.value
  discard (items "\x7d" constant)

/- Whether a function or a class comes next that has a name. -/
def seesNamed : Parser Bool :=
  let namedFunction : Parser Unit := do
    let _ ← acceptWord "async"
    word "function"
    let _ ← acceptMark "*"
    identifier
  let namedClass : Parser Unit := do
    let _ ← acceptWord "abstract"
    word "class"
    identifier
  admits (namedFunction <|> namedClass)

------------------------------------------------------------
-- Modules
------------------------------------------------------------

/- A named block that is a module of its own. -/
def moduleBlock
    (rules : Rules) : Parser Unit := do
  word "module"
  namedBlock rules

/- Names in braces, each with another name for it perhaps. -/
def aliases : Parser Unit := do
  mark "\x7b"
  let one : Parser Unit := do
    identifier
    if ← acceptWord "as" then identifier
  discard (items "\x7d" one)

/- The text that names another file. -/
def origin : Parser Unit := do
  word "from"
  discard quoted

/- What is taken from another file. -/
def importing : Parser Unit := do
  word "import"
  let all : Parser Unit := do
    mark "*"
    word "as"
    identifier
  let named : Parser Unit := do
    identifier
    if ← acceptMark "," then all <|> aliases
  let clause : Parser Unit := do
    all <|> aliases <|> named
    origin
  clause <|> discard quoted
  finish false

/- Words that start a declaration. -/
def declarationWords : List String :=
  ["abstract", "async", "class", "const", "declare", "enum", "function",
    "interface", "let", "module", "namespace", "type", "var"]

/- A declaration behind a word that qualifies it. -/
def qualified
    (rules : Rules) : Parser Unit := do
  let starts (token : Token) : Bool :=
    declarationWords.any fun text => token.isWord text
  if ← sees starts then discard rules.statement else failure

/- What is offered to other files. -/
def exporting
    (rules : Rules) : Parser Unit := do
  word "export"
  let all : Parser Unit := do
    mark "*"
    origin
    finish false
  let named : Parser Unit := do
    aliases
    discard (optional origin)
    finish false
  let value : Parser Unit := do
    discard (rules.expression .nothing .line)
    finish true
  let standard : Parser Unit := do
    word "default"
    qualified rules <|> value
  let assigned : Parser Unit := do
    mark "="
    value
  all <|> named <|> standard <|> assigned <|> qualified rules

/- A declaration that is made elsewhere. -/
def ambient
    (rules : Rules) : Parser Unit := do
  word "declare"
  let outermost : Parser Unit := do
    word "global"
    block rules
  outermost <|> qualified rules

------------------------------------------------------------
-- Declarations
------------------------------------------------------------

/- Words that start a declaration, or else are names. -/
def wordNames : List String :=
  ["async", "declare", "export", "let", "module", "namespace", "type"]

/- Whether a word starts nothing but a declaration here. -/
def seesDeclaration
    (text : String) : Parser Bool := do
  let startsVariable (token : Token) : Bool :=
    isName token || token.isMark "[" || token.isMark "\x7b"
  if ["abstract", "const", "enum", "interface", "var"].contains text then
    pure true
  else if wordNames.contains text && (← standsAlone) then pure false
  else if text == "let" then seesSecond startsVariable
  else seesNamed

/-
  A declaration that a word starts, with its construct. On a line
  of its own, a word that may be a name starts none.
-/
def declaration
    (rules : Rules)
    (start : Point)
    (text : String) : Parser Sentence := do
  let made (construct : String) (item : Parser Unit) : Parser Sentence := do
    item
    otherStatement start construct
  let lexical : Parser Unit := do
    finish (← declarators rules)
  let routine : Parser Unit := do
    if !(← seesNamed) then failure
    let _ ← acceptWord "async"
    let _ ← function rules start
  let kind : Parser Unit := do
    if !(← seesNamed) then failure
    let _ ← acceptWord "abstract"
    let _ ← classPhrase rules
  if wordNames.contains text && (← standsAlone) then failure
  else if text == "var" then made "variable_declaration" lexical
  else if text == "let" then made "lexical_declaration" lexical
  else if text == "const" then
    if ← seesSecond (·.isWord "enum") then
      made "enum_declaration" (enumeration rules)
    else made "lexical_declaration" lexical
  else if text == "function" || text == "async" then
    made "function_declaration" routine
  else if text == "class" then made "class_declaration" kind
  else if text == "abstract" then
    made "abstract_class_declaration" kind
  else if text == "type" then
    made "type_alias_declaration" (typeAlias rules)
  else if text == "interface" then
    made "interface_declaration" (interfaceType rules)
  else if text == "enum" then
    made "enum_declaration" (enumeration rules)
  else if text == "module" then made "module" (moduleBlock rules)
  else if text == "declare" then
    made "ambient_declaration" (ambient rules)
  else if text == "import" then made "import_statement" importing
  else if text == "export" then
    made "export_statement" (exporting rules)
  else failure

end SchemaLang.Grammar
