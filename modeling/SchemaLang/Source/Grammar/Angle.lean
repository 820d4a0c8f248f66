import SchemaLang.Source.Grammar.Words

/-
  This file decides what may stand behind an angle bracket that
  follows an operand. The bracket either opens type arguments or
  compares, and the text behind it is both a type and a value for
  as long as it can be. Where it has ended as a type, it may no
  longer be a value.

  Key definitions include:
    * `Reading`
    * `Setting`
    * `Reading.of`
-/

namespace SchemaLang.Grammar

/- What a text may be: a value, a type, or either of them. -/
inductive Reading
  | value
  | type
  | either
  deriving DecidableEq, Repr

/-
  Where a type stands: in angle brackets, in parentheses, in square
  brackets, behind the mark of a spread in them, in a substitution,
  or behind the key of a member.
-/
inductive Setting
  | argument
  | group
  | element
  | spread
  | substitution
  | member
  deriving DecidableEq, Repr

------------------------------------------------------------
-- Words
------------------------------------------------------------

/- Words that start a type and no value. -/
def typeWords : List String :=
  ["abstract", "infer", "keyof", "never", "unique", "unknown"]

/- Words that name a type of their own. -/
def basicTypes : List String :=
  ["any", "boolean", "never", "number", "object", "string", "symbol",
    "unknown", "void"]

/- Words with a meaning of their own that are names of values only. -/
def valueWords : List String :=
  ["async", "await", "class", "declare", "delete", "export", "function",
    "get", "import", "let", "module", "namespace", "override", "private",
    "protected", "public", "set", "static", "super", "type", "yield"]

/- Words that mean a type or start one, and name values as well. -/
def valueTypes : List String :=
  ["any", "boolean", "new", "number", "object", "readonly", "string",
    "symbol", "undefined"]

------------------------------------------------------------
-- Ends Of Types
------------------------------------------------------------

/- Whether a mark ends a type or goes on with it. -/
def Setting.follows
    (setting : Setting)
    (token : Token) : Bool :=
  match token.lexeme with
  | .mark text =>
    match setting with
    | .argument => ["|", "&", "[", ",", ">"].contains text
    | .group => ["|", "&", "[", ")"].contains text
    | .element => ["|", "&", "[", ",", "]"].contains text
    | .spread => ["|", "&", "[", ",", "]"].contains text
    | .substitution => ["|", "&", "["].contains text
    | .member => ["|", "&", "[", ",", ";", "\x7d"].contains text
  | .templateMiddle => setting = .substitution
  | .templateTail => setting = .substitution
  | .word text => text == "extends"
  | _ => false

/-
  Whether a member ends in front of a token, be it without a mark:
  the braces close, or a line ends and is not gone on with.
-/
def endsMember
    (last : Token)
    (next : Token) : Bool :=
  next.isMark "\x7d" ||
    (last.range.stop.row < next.range.start.row && !joinsLine true next)

/-
  Whether a token closes angle brackets and does not stop there, so
  that it shifts or compares.
-/
def isLongAngle
    (token : Token) : Bool :=
  match token.lexeme with
  | .mark text => text.startsWith ">" && text != ">"
  | _ => false

/- Whether a template starts with a substitution. -/
def isBareHead
    (token : Token) : Bool :=
  token.range.start.row = token.range.stop.row &&
    token.range.start.column + 3 = token.range.stop.column

/-
  The reading of a text that may end as a type and as a value,
  given what follows it. A question mark asks for a choice unless
  it ends what it is written behind. Double marks join values.
-/
def Setting.closed
    (setting : Setting)
    (last : Token) : List Token → Reading
  | [] => .value
  | next :: rest =>
    if next.isMark "?" then
      if [":", ")", ","].any fun text => rest.head?.any (·.isMark text) then
        .either
      else .value
    else if next.isMark "||" || next.isMark "&&" then .value
    else if setting = .argument && isLongAngle next then .value
    else if setting = .member && endsMember last next then .type
    else .either

/-
  The reading of a word that names a type and may also be a
  parameter. Where it could end as both, it is the type.
-/
def Setting.named
    (setting : Setting)
    (last : Token)
    (rest : List Token) : Reading :=
  let ends (texts : List String) : Bool :=
    texts.any fun text => rest.head?.any (·.isMark text)
  match setting with
  | .group => if ends [")"] then .type else setting.closed last rest
  | .element => if ends [",", "]"] then .type else setting.closed last rest
  | .member => if ends [","] then .type else setting.closed last rest
  | _ => setting.closed last rest

------------------------------------------------------------
-- Readings
------------------------------------------------------------

namespace Reading

/- The reading of a number behind a sign. -/
def signed
    (setting : Setting)
    (last : Token)
    (rest : List Token) : Reading :=
  match rest with
  | next :: _ =>
    if setting.follows next then .type
    else if setting = .member && endsMember last next then .type
    else .value
  | [] => .value

/- The reading of what stands behind the word for types of values. -/
def queried
    (setting : Setting) : List Token → Reading
  | last :: next :: _ =>
    match last.lexeme with
    | .word text =>
      if valueWords.contains text || valueTypes.contains text then .value
      else if !isName last && text != "this" then .value
      else if [".", "?.", "[", "(", "<"].any fun mark => next.isMark mark then
        .type
      else if setting.follows next then .type
      else if setting = .member && endsMember last next then .type
      else .value
    | _ => .value
  | _ => .value

/- The reading of a word. -/
def ofWord
    (setting : Setting)
    (text : String)
    (last : Token)
    (rest : List Token) : Reading :=
  if typeWords.contains text then .type
  else if text == "typeof" then queried setting rest
  else if text == "void" then
    if rest.head?.any (·.isMark "[") then .type else .either
  else if text == "readonly" then
    let starts (token : Token) : Bool :=
      if ["!", "~", "++", "--"].any fun text => token.isMark text then false
      else startsExpression token || token.isMark "|" || token.isMark "&"
    if rest.head?.any starts then .type else .value
  else if text == "new" then
    if rest.head?.any (·.isMark "(") then .either else .value
  else if valueWords.contains text then .value
  else if basicTypes.contains text || text == "undefined" then
    setting.named last rest
  else setting.closed last rest

/-
  The reading of a list in brackets, given how the front of its
  first element reads, be it spread or not.
-/
def ofList
    (setting : Setting)
    (inner : List Token → Reading)
    (spread : List Token → Reading) : List Token → Reading
  | [] => .value
  | token :: rest =>
    if token.isMark "]" then setting.closed token rest
    else if token.isMark "..." then
      if spread rest = .type then .type else .either
    else if token.isMark "," then .either
    else inner (token :: rest)

/-
  The reading of what stands in parentheses. A function type may
  have names of values as its parameters.
-/
def ofGroup
    (inner : List Token → Reading) : List Token → Reading
  | [] => .value
  | token :: rest =>
    if token.isMark ")" then .either
    else
      match inner (token :: rest) with
      | .value =>
        if (Parser.behind 1 (token :: rest)).head?.any (·.isMark "=>") then
          .either
        else .value
      | reading => reading

/-
  The reading of what stands in braces. A first member that is a
  name alone makes a type, and one with a value is what that is.
-/
def ofBraces
    (setting : Setting)
    (inner : List Token → Reading) : List Token → Reading
  | [] => .value
  | token :: rest =>
    if token.isMark "\x7d" then setting.closed token rest
    else if token.isMark "..." then .value
    else
      let behindKey :=
        if token.isMark "[" then Parser.behind 1 rest else rest
      match behindKey with
      | next :: more =>
        if next.isMark ":" then inner more
        else if next.isMark "\x7d" then
          if more.head?.any (·.isMark ":") then .either else .type
        else .either
      | [] => .value

/- The reading of the front of a text, looked at a number of tokens deep. -/
def ofFront
    (setting : Setting) : Nat → List Token → Reading
  | 0, _ => .either
  | _, [] => .value
  | depth + 1, token :: rest =>
    match token.lexeme with
    | .word text => ofWord setting text token rest
    | .number _ => setting.closed token rest
    | .quoted _ => setting.closed token rest
    | .template _ => .either
    | .templateHead =>
      if isBareHead token && ofFront .substitution depth rest = .type then
        .type
      else .either
    | .mark text =>
      if text == "(" then ofGroup (ofFront .group depth) rest
      else if text == "[" then
        ofList setting (ofFront .element depth) (ofFront .spread depth) rest
      else if text == "\x7b" then
        ofBraces setting (ofFront .member depth) rest
      else if text == "-" || text == "+" then
        match rest with
        | ⟨.number text, range, remarks⟩ :: more =>
          signed setting ⟨.number text, range, remarks⟩ more
        | _ => .value
      else if text == "!" || text == "~" then .value
      else .either
    | _ => .value

/- The reading of a text behind an angle bracket. -/
def of
    (tokens : List Token) : Reading :=
  ofFront .argument tokens.length tokens

end Reading

end SchemaLang.Grammar
