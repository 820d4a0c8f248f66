import SchemaLang.Source.Text

/-
  This file splits a prepared text into tokens. A token carries the
  comments that stand between it and the token before it.

  Key definitions include:
    * `Lexeme`
    * `Token`
    * `Token.scan`
-/

namespace SchemaLang

------------------------------------------------------------
-- Tokens
------------------------------------------------------------

/-
  What a token is. A template without substitutions is one lexeme;
  one with substitutions is cut at each of them.
-/
inductive Lexeme
  | word (text : String)
  | privateName (text : String)
  | number (text : String)
  | quoted (text : String)
  | template (text : String)
  | templateHead
  | templateMiddle
  | templateTail
  | regex (pattern flags : String)
  | mark (text : String)
  deriving DecidableEq, Repr

/- A lexeme, its place and the comments in front of it. -/
structure Token where
  lexeme : Lexeme
  range : Range
  remarks : List Remark
  deriving DecidableEq, Repr

namespace Token

/-
  The front of a text that was recognised, and the rest.
-/
abbrev Cut := List Char × List Char

------------------------------------------------------------
-- Numbers
------------------------------------------------------------

/- Digits of a base, single underscores between them allowed. -/
def cutDigits
    (isDigit : Char → Bool) : List Char → Cut
  | [] => ([], [])
  | '_' :: c :: rest =>
    if isDigit c then
      let (taken, rest) := cutDigits isDigit rest
      ('_' :: c :: taken, rest)
    else ([], '_' :: c :: rest)
  | c :: rest =>
    if isDigit c then
      let (taken, rest) := cutDigits isDigit rest
      (c :: taken, rest)
    else ([], c :: rest)

/- At least one digit of a base. -/
def cutRun?
    (isDigit : Char → Bool)
    (text : List Char) : Option Cut :=
  match text with
  | c :: _ =>
    if isDigit c then some (cutDigits isDigit text) else none
  | [] => none

/- A suffix `n`, if there is one. -/
def cutSuffix
    (cut : Cut) : Cut :=
  match cut with
  | (taken, 'n' :: rest) => (taken ++ ['n'], rest)
  | _ => cut

/- An exponent, if there is one. -/
def cutExponent
    (cut : Cut) : Cut :=
  let (taken, text) := cut
  match text with
  | mark :: rest =>
    if mark == 'e' || mark == 'E' then
      let (sign, digits) :=
        match rest with
        | '-' :: rest => (['-'], rest)
        | '+' :: rest => (['+'], rest)
        | _ => ([], rest)
      match cutRun? Char.isDigit digits with
      | some (run, rest) => (taken ++ mark :: sign ++ run, rest)
      | none => cut
    else cut
  | [] => cut

/-
  Digits that a point or an exponent may follow: a zero alone, or
  at most one zero and then another digit.
-/
def isWhole
    (digits : List Char) : Bool :=
  match digits with
  | ['0'] => true
  | '0' :: c :: _ => c.isDigit && c != '0'
  | c :: _ => c != '0'
  | [] => false

/- Digits after a point, if there are any. -/
def cutFraction
    (text : List Char) : Cut :=
  match cutRun? Char.isDigit text with
  | some cut => cut
  | none => ([], text)

/- A number in base ten that starts with a digit. -/
def cutDecimal
    (text : List Char) : Cut :=
  let (digits, rest) := cutDigits Char.isDigit text
  match rest with
  | 'n' :: rest => (digits ++ ['n'], rest)
  | '.' :: more =>
    if isWhole digits then
      let (part, rest) := cutFraction more
      cutExponent (digits ++ '.' :: part, rest)
    else (digits, rest)
  | _ =>
    if isWhole digits then cutExponent (digits, rest)
    else (digits, rest)

/- A number with the mark of a base, or else in base ten. -/
def cutBased
    (isDigit : Char → Bool)
    (mark : Char)
    (digits text : List Char) : Cut :=
  match cutRun? isDigit digits with
  | some (run, rest) => cutSuffix ('0' :: mark :: run, rest)
  | none => cutDecimal text

/- The number at the front of a text. -/
def cutNumber?
    (text : List Char) : Option Cut :=
  match text with
  | '0' :: mark :: rest =>
    some (
      if mark == 'x' || mark == 'X' then
        cutBased Text.isHexDigit mark rest text
      else if mark == 'o' || mark == 'O' then
        cutBased (fun c => '0' ≤ c && c ≤ '7') mark rest text
      else if mark == 'b' || mark == 'B' then
        cutBased (fun c => c == '0' || c == '1') mark rest text
      else cutDecimal text)
  | '.' :: rest =>
    match cutRun? Char.isDigit rest with
    | some (run, rest) => some (cutExponent ('.' :: run, rest))
    | none => none
  | c :: _ => if c.isDigit then some (cutDecimal text) else none
  | [] => none

------------------------------------------------------------
-- Names
------------------------------------------------------------

/- An escaped character of a name. -/
def cutNameEscape?
    (text : List Char) : Option Cut :=
  match text with
  | '\\' :: 'u' :: '\x7b' :: rest =>
    let digits := rest.takeWhile Text.isHexDigit
    match rest.drop digits.length with
    | '\x7d' :: rest =>
      if digits.isEmpty then none
      else some (['\\', 'u', '\x7b'] ++ digits ++ ['\x7d'], rest)
    | _ => none
  | '\\' :: 'u' :: rest =>
    let digits := rest.take 4
    if digits.length = 4 && digits.all Text.isHexDigit then
      some ('\\' :: 'u' :: digits, rest.drop 4)
    else none
  | _ => none

/- The rest of a name, at most as many parts as there are steps. -/
def cutNameParts : Nat → List Char → Cut
  | 0, text => ([], text)
  | steps + 1, text =>
    match text with
    | [] => ([], [])
    | c :: rest =>
      if Text.isNamePart c then
        let (taken, rest) := cutNameParts steps rest
        (c :: taken, rest)
      else
        match cutNameEscape? text with
        | some (part, rest) =>
          let (taken, rest) := cutNameParts steps rest
          (part ++ taken, rest)
        | none => ([], text)

/- The name at the front of a text. -/
def cutName?
    (text : List Char) : Option Cut :=
  match text with
  | [] => none
  | c :: _ =>
    if Text.isNameStart c || (cutNameEscape? text).isSome then
      some (cutNameParts text.length text)
    else none

------------------------------------------------------------
-- Strings, Templates And Regular Expressions
------------------------------------------------------------

/- An escape as the grammar admits it, behind its backslash. -/
def cutEscape?
    (text : List Char) : Option Cut :=
  match text with
  | [] => none
  | 'x' :: rest =>
    let digits := rest.take 2
    if digits.length = 2 && digits.all Text.isHexDigit then
      some ('x' :: digits, rest.drop 2)
    else none
  | 'u' :: '\x7b' :: rest =>
    let digits := rest.takeWhile Text.isHexDigit
    match rest.drop digits.length with
    | '\x7d' :: rest =>
      if digits.isEmpty then none
      else some (['u', '\x7b'] ++ digits ++ ['\x7d'], rest)
    | _ => none
  | 'u' :: rest =>
    let digits := rest.take 4
    if digits.length = 4 && digits.all Text.isHexDigit then
      some ('u' :: digits, rest.drop 4)
    else none
  | c :: d :: rest =>
    if (c == '\r' || c == '?') && Text.isLineEnd d && d != '\r' then
      some ([c, d], rest)
    else some ([c], d :: rest)
  | [c] => some ([c], [])

/- A quoted string behind its opening quote. -/
def cutQuoted?
    (quote : Char) : Nat → List Char → Option Cut
  | 0, _ => none
  | steps + 1, text =>
    match text with
    | [] => none
    | c :: rest =>
      if c == quote then some ([c], rest)
      else if c == '\n' || c == '\r' then none
      else if c == '\\' then
        match cutEscape? rest with
        | none => none
        | some (escape, rest) =>
          match cutQuoted? quote steps rest with
          | none => none
          | some (taken, rest) => some ('\\' :: escape ++ taken, rest)
      else
        match cutQuoted? quote steps rest with
        | none => none
        | some (taken, rest) => some (c :: taken, rest)

/-
  The part of a template up to its end or to a substitution. The
  flag tells whether a substitution follows.
-/
def cutTemplate? : Nat → List Char → Option (Bool × Cut)
  | 0, _ => none
  | steps + 1, text =>
    match text with
    | [] => none
    | '\x60' :: rest => some (false, ['\x60'], rest)
    | '$' :: '\x7b' :: rest => some (true, ['$', '\x7b'], rest)
    | '\\' :: rest =>
      match cutEscape? rest with
      | none => none
      | some (escape, rest) =>
        match cutTemplate? steps rest with
        | none => none
        | some (more, taken, rest) =>
          some (more, '\\' :: escape ++ taken, rest)
    | c :: rest =>
      match cutTemplate? steps rest with
      | none => none
      | some (more, taken, rest) => some (more, c :: taken, rest)

/-
  The pattern of a regular expression up to its closing slash,
  which is not taken. Within brackets a slash is an ordinary
  character.
-/
def cutPattern?
    (bracketed : Bool) : List Char → Option Cut
  | [] => none
  | '\\' :: c :: rest =>
    if c == '\n' then none
    else
      match cutPattern? bracketed rest with
      | none => none
      | some (taken, rest) => some ('\\' :: c :: taken, rest)
  | c :: rest =>
    if c == '\n' || c == '\\' then none
    else if c == '/' && !bracketed then some ([], c :: rest)
    else
      let inside :=
        if c == '[' then true
        else if c == ']' then false
        else bracketed
      match cutPattern? inside rest with
      | none => none
      | some (taken, rest) => some (c :: taken, rest)

------------------------------------------------------------
-- Marks
------------------------------------------------------------

/- Operators and punctuation, longer ones first. -/
def marks : List String :=
  [">>>=", "...", "===", "!==", "**=", "<<=", ">>=", ">>>", "&&=", "||=",
    "??=", "=>", "==", "!=", "<=", ">=", "&&", "||", "??", "?.", "++",
    "--", "+=", "-=", "*=", "/=", "%=", "&=", "|=", "^=", "<<", ">>",
    "**", "\x7b", "\x7d", "(", ")", "[", "]", ";", ",", "<", ">", "+",
    "-", "*", "/", "%", "&", "|", "^", "!", "~", "?", ":", "=", "."]

/- The mark at the front of a text. -/
def cutMark?
    (text : List Char) : Option Cut :=
  match marks.find? fun mark => mark.toList.isPrefixOf text with
  | some mark => some (mark.toList, text.drop mark.length)
  | none => none

------------------------------------------------------------
-- Scanning
------------------------------------------------------------

/-
  What a bracket opens: a substitution of a template, a body with
  statements behind which a statement may start, the head of a
  statement, or a part of an expression.
-/
inductive Opened
  | substitution
  | body
  | head
  | operand
  deriving DecidableEq, Repr

/-
  What the scanner remembers of the tokens before: whether the last
  one ends an operand, so that a slash divides; whether it is a
  point, so that a word is a member's name; whether a statement may
  start behind it; whether it is a word that a colon makes a label,
  or one that a head follows; whether a body is still to come; and
  for each open bracket what it opens and whether a body is to come
  behind it. Where a statement starts with a brace and a key, it may
  be either an object or a body; the scanner is told which.
-/
structure State where
  objects : Bool
  operand : Bool := false
  dotted : Bool := false
  starts : Bool := true
  labels : Bool := false
  heads : Bool := false
  declares : Bool := false
  opened : List (Opened × Bool) := []

/- Words behind which an operand is still to come. -/
def operatorWords : List String :=
  ["typeof", "void", "delete", "in", "instanceof", "return", "case", "do",
    "else", "await", "yield", "new", "throw", "extends"]

/- Words that a head in parentheses follows. -/
def headWords : List String :=
  ["if", "for", "while", "with", "switch", "catch"]

/- Words that a statement follows. -/
def leadWords : List String :=
  ["else", "do", "try", "finally"]

/- Words that may stand in front of a declaration. -/
def qualifyingWords : List String :=
  ["export", "default", "declare", "abstract", "async"]

/- Words that start a declaration with a body. -/
def bodyWords : List String :=
  ["function", "class", "interface", "enum", "module", "namespace"]

/-
  Whether a text behind a brace starts like an object: with a
  spread, or with a key and a colon.
-/
def startsObject
    (text : List Char) : Bool :=
  let front := text.dropWhile Text.isSpace
  let key? :=
    match front with
    | [] => none
    | c :: rest =>
      if c == '"' || c == '\'' then cutQuoted? c front.length rest
      else
        match cutNumber? front with
        | some cut => some cut
        | none => cutName? front
  let colon :=
    match key? with
    | some (_, rest) => (rest.dropWhile Text.isSpace).head? == some ':'
    | none => false
  "...".toList.isPrefixOf front || colon

namespace State

/- What is remembered after a bracket that opens something. -/
def enter
    (state : State)
    (kind : Opened) : State :=
  { objects := state.objects
    starts := kind == .body
    opened := (kind, state.declares && kind != .body) :: state.opened }

/- What is remembered after a bracket that closes something. -/
def leave
    (state : State) : State :=
  let kind := (state.opened.head?.map Prod.fst).getD .operand
  let ends := kind == .body || kind == .head
  { objects := state.objects
    operand := !ends
    starts := ends
    declares := (state.opened.head?.map Prod.snd).getD false
    opened := state.opened.drop 1 }

/- What is remembered after a word. -/
def pushWord
    (state : State)
    (text : String) : State :=
  let free := !state.dotted
  { objects := state.objects
    operand := state.dotted || !operatorWords.contains text
    starts := free && (leadWords.contains text ||
      (state.starts && qualifyingWords.contains text))
    labels := state.starts
    heads := free && headWords.contains text
    declares := state.declares ||
      (free && state.starts && bodyWords.contains text)
    opened := state.opened }

/- What is remembered after a mark, with the text behind it. -/
def pushMark
    (state : State)
    (text : String)
    (rest : List Char) : State :=
  if text == "(" then
    state.enter (if state.heads then .head else .operand)
  else if text == "[" then state.enter .operand
  else if text == "\x7b" then
    let isObject := state.objects && startsObject rest
    if state.declares || (state.starts && !isObject) then
      state.enter .body
    else state.enter .operand
  else if text == ")" || text == "]" || text == "\x7d" then state.leave
  else
    { objects := state.objects
      operand :=
        (text == "!" || text == "++" || text == "--") && state.operand
      dotted := text == "." || text == "?."
      starts := text == ";" || (text == ":" && state.labels)
      declares := state.declares && text != ";" && text != "="
      opened := state.opened }

/- What is remembered after a lexeme, with the text behind it. -/
def push
    (state : State)
    (lexeme : Lexeme)
    (rest : List Char) : State :=
  match lexeme with
  | .word text => state.pushWord text
  | .mark text => state.pushMark text rest
  | .templateHead => state.enter .substitution
  | .templateMiddle =>
    { objects := state.objects, starts := false, opened := state.opened }
  | .templateTail => state.leave
  | _ => { state with operand := true, dotted := false, starts := false }

end State

/- A regular expression behind its opening slash. -/
def cutRegex?
    (text : List Char) : Option (Lexeme × Cut) :=
  match cutPattern? false text with
  | some (pattern, slash :: rest) =>
    if pattern.isEmpty then none
    else
      let flags := rest.takeWhile fun c => 'a' ≤ c && c ≤ 'z'
      some (.regex (String.ofList pattern) (String.ofList flags),
        pattern ++ slash :: flags, rest.drop flags.length)
  | _ => none

/-
  The lexeme at the front of a text, its text and the rest. A slash
  that opens no regular expression divides.
-/
def cutLexeme?
    (state : State)
    (text : List Char) : Option (Lexeme × Cut) :=
  match text with
  | [] => none
  | '#' :: rest =>
    match cutName? rest with
    | some (taken, rest) =>
      some (.privateName (String.ofList ('#' :: taken)), '#' :: taken, rest)
    | none => none
  | '\x60' :: rest =>
    match cutTemplate? text.length rest with
    | some (true, taken, rest) =>
      some (.templateHead, '\x60' :: taken, rest)
    | some (false, taken, rest) =>
      some (.template (String.ofList ('\x60' :: taken)), '\x60' :: taken,
        rest)
    | none => none
  | c :: rest =>
    if c == '"' || c == '\'' then
      match cutQuoted? c text.length rest with
      | some (taken, rest) =>
        some (.quoted (String.ofList (c :: taken)), c :: taken, rest)
      | none => none
    else if c == '\x7d' && (state.opened.head?.map Prod.fst) == some .substitution then
      match cutTemplate? text.length rest with
      | some (true, taken, rest) =>
        some (.templateMiddle, c :: taken, rest)
      | some (false, taken, rest) =>
        some (.templateTail, c :: taken, rest)
      | none => none
    else if c == '/' && !state.operand then
      match cutRegex? rest with
      | some (lexeme, taken, rest) => some (lexeme, c :: taken, rest)
      | none => some (.mark "/", [c], rest)
    else
      match cutNumber? text with
      | some (taken, rest) =>
        some (.number (String.ofList taken), taken, rest)
      | none =>
        match cutName? text with
        | some (taken, rest) =>
          some (.word (String.ofList taken), taken, rest)
        | none =>
          match cutMark? text with
          | some (taken, rest) =>
            some (.mark (String.ofList taken), taken, rest)
          | none => none

/- The end of a block comment behind its opening mark. -/
def cutBlock? : List Char → Option Cut
  | '*' :: '/' :: rest => some (['*', '/'], rest)
  | c :: rest =>
    match cutBlock? rest with
    | some (taken, rest) => some (c :: taken, rest)
    | none => none
  | [] => none

/-
  The comment at the front of a text. Without its closing mark, a
  block comment is none.
-/
def cutRemark?
    (text : List Char) : Option Cut :=
  match text with
  | '/' :: '/' :: rest =>
    let line := rest.takeWhile fun c => !Text.isLineEnd c
    some ('/' :: '/' :: line, rest.drop line.length)
  | '/' :: '*' :: rest =>
    match cutBlock? rest with
    | some (taken, rest) => some ('/' :: '*' :: taken, rest)
    | none => none
  | _ => none

/-
  The tokens of a text that starts at a point. There are none if
  some part of the text is no token.
-/
def scanFrom
    (state : State)
    (remarks : List Remark)
    (point : Point) : Nat → List Char → Option (List Token)
  | _, [] => some []
  | 0, _ :: _ => none
  | steps + 1, c :: rest =>
    if Text.isSpace c then
      scanFrom state remarks (point.next c) steps rest
    else
      match cutRemark? (c :: rest) with
      | some (taken, rest) =>
        let stop := point.after taken
        let remark := ⟨String.ofList taken, ⟨point, stop⟩⟩
        scanFrom state (remarks ++ [remark]) stop steps rest
      | none =>
        match cutLexeme? state (c :: rest) with
        | none => none
        | some (lexeme, taken, rest) =>
          let stop := point.after taken
          match scanFrom (state.push lexeme rest) [] stop steps rest with
          | none => none
          | some tokens => some (⟨lexeme, ⟨point, stop⟩, remarks⟩ :: tokens)

/- The tokens of a prepared text. -/
def scan
    (objects : Bool)
    (text : List Char) : Option (List Token) :=
  scanFrom { objects := objects } [] {} text.length text

end Token

end SchemaLang
