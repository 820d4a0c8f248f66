import SchemaLang.Options.Settings
import SchemaLang.Text.Class

/-
  This file reads texts of settings in the TOML format: keys with
  values, one on each line, and headers that open tables.

  Key definitions include:
    * `Toml.Paths`
    * `Toml.settings?`
-/

namespace SchemaLang

namespace Toml

/- Paths with their values, in the order of the text. -/
abbrev Paths := List (List String × Setting)

/- A function that takes characters from the front of a text. -/
abbrev Scanner := StateT (List Char) Option

------------------------------------------------------------
-- Characters
------------------------------------------------------------

/- Take the characters of a class at the front. -/
def takeWhile
    (holds : Char → Bool) : Scanner (List Char) := fun text =>
  some (text.takeWhile holds, text.dropWhile holds)

/- Take one character. -/
def take : Scanner Char := fun text =>
  match text with
  | [] => none
  | c :: rest => some (c, rest)

/- Take a character if it is next. -/
def accept
    (c : Char) : Scanner Bool := fun text =>
  match text with
  | [] => some (false, [])
  | d :: rest => if d = c then some (true, rest) else some (false, text)

/- Take a given character. -/
def char
    (c : Char) : Scanner Unit := do
  if ← accept c then pure () else failure

/- Whether a character is next. -/
def sees
    (c : Char) : Scanner Bool := fun text =>
  some (text.head? == some c, text)

/- Pass over blanks of a line. -/
def blanks : Scanner Unit := do
  let _ ← takeWhile fun c => c == ' ' || c == '\t'

/- Whether a character may not stand in a text. -/
def isControl
    (c : Char) : Bool :=
  (c.toNat < 32 && c != '\t') || c.toNat == 127

/- Pass over a comment, if there is one. -/
def comment : Scanner Unit := do
  if ← accept '#' then
    let _ ← takeWhile fun c => !isControl c

/- Pass over the end of a line; the end of the text is one, too. -/
def lineEnd : Scanner Unit := fun text =>
  match text with
  | [] => some ((), [])
  | '\n' :: rest => some ((), rest)
  | '\r' :: '\n' :: rest => some ((), rest)
  | _ => none

/- Pass over blanks, comments and ends of lines. -/
def gaps : Nat → Scanner Unit
  | 0 => pure ()
  | steps + 1 => do
    blanks
    comment
    if (← sees '\n') || (← sees '\r') then
      lineEnd
      gaps steps

/- Pass over blanks, comments and ends of lines. -/
def gap : Scanner Unit := do
  gaps ((← get).length + 1)

------------------------------------------------------------
-- Strings
------------------------------------------------------------

/- The character of an escape, behind the backslash. -/
def escape : Scanner Char := do
  let code (digits : List Char) (count : Nat) : Scanner Char :=
    let value := Text.digitsValue 16 digits
    if digits.length = count && digits.all Text.isHexDigit then
      if h : value.isValidChar then pure (Char.ofNatAux value h)
      else failure
    else failure
  let c ← take
  if c = 'b' then pure '\x08'
  else if c = 't' then pure '\t'
  else if c = 'n' then pure '\n'
  else if c = 'f' then pure '\x0c'
  else if c = 'r' then pure '\r'
  else if c = '"' || c = '\\' then pure c
  else if c = 'u' || c = 'U' then
    let count := if c = 'u' then 4 else 8
    let text ← get
    set (text.drop count)
    code (text.take count) count
  else failure

/- The rest of a string with escapes, behind its opening quote. -/
def basicRest : Nat → Scanner (List Char)
  | 0 => failure
  | steps + 1 => do
    let c ← take
    if c = '"' then pure []
    else if isControl c then failure
    else
      let first ← if c = '\\' then escape else pure c
      let rest ← basicRest steps
      pure (first :: rest)

/- A string with or without escapes. -/
def string : Scanner String := do
  if ← accept '"' then
    let body ← basicRest (← get).length
    pure (String.ofList body)
  else
    char '\''
    let body ← takeWhile fun c => c != '\'' && !isControl c
    char '\''
    pure (String.ofList body)

------------------------------------------------------------
-- Strings Of Several Lines
------------------------------------------------------------

/-
  What a backslash stands for in a string of several lines: an
  escape, or nothing if the line ends behind it. Blanks and ends
  of lines that follow are then passed over.
-/
def foldedEscape : Scanner (List Char) := do
  let isGap (c : Char) : Bool :=
    c == ' ' || c == '\t' || c == '\n' || c == '\r'
  let gap := (← get).takeWhile isGap
  if gap.contains '\n' then
    let _ ← takeWhile isGap
    pure []
  else
    let c ← escape
    pure [c]

/-
  The rest of a string of several lines, behind its opening quotes.
  Up to two more quotes may stand in front of the closing ones.
-/
def blockRest
    (quote : Char) : Nat → Scanner (List Char)
  | 0 => failure
  | steps + 1 => do
    let quotes ← takeWhile (· == quote)
    if 3 ≤ quotes.length then
      modify (quotes.drop 5 ++ ·)
      pure ((quotes.take 5).drop 3)
    else
      let c ← take
      let first ←
        if c = '\\' && quote = '"' then foldedEscape
        else if c = '\r' then
          char '\n'
          pure ['\r', '\n']
        else if isControl c && c != '\n' then failure
        else pure [c]
      let rest ← blockRest quote steps
      pure (quotes ++ first ++ rest)

/- A string between triple quotes; it may start on the next line. -/
def block
    (quote : Char) : Scanner String := do
  char quote
  char quote
  char quote
  let _ ← optional do
    if (← get).isEmpty then failure
    lineEnd
  let body ← blockRest quote ((← get).length + 1)
  pure (String.ofList body)

------------------------------------------------------------
-- Keys
------------------------------------------------------------

/- Whether a character may stand in a key without quotes. -/
def isKeyPart
    (c : Char) : Bool :=
  c.isAlphanum || c == '_' || c == '-'

/- One part of a key. -/
def keyPart : Scanner String := do
  if (← sees '"') || (← sees '\'') then string
  else
    let body ← takeWhile isKeyPart
    if body.isEmpty then failure else pure (String.ofList body)

/- Parts of a key with points between them. -/
def keyParts : Nat → Scanner (List String)
  | 0 => failure
  | steps + 1 => do
    let first ← keyPart
    blanks
    if ← accept '.' then
      blanks
      let rest ← keyParts steps
      pure (first :: rest)
    else pure [first]

/- A key. -/
def key : Scanner (List String) := do
  keyParts (← get).length

------------------------------------------------------------
-- Values
------------------------------------------------------------

/- Digits of a base with single underscores between them. -/
def isRun
    (isDigit : Char → Bool) : List Char → Bool
  | [] => false
  | [c] => isDigit c
  | c :: '_' :: rest => isDigit c && isRun isDigit rest
  | c :: rest => isDigit c && isRun isDigit rest

/- An integer without a sign. -/
def isWhole
    (digits : List Char) : Bool :=
  isRun Char.isDigit digits && (digits.length = 1 || digits.head? != some '0')

/- The rest behind a sign. -/
def unsigned : List Char → List Char
  | '+' :: rest => rest
  | '-' :: rest => rest
  | text => text

/- An integer that fits a word of 64 bits. -/
def isInteger
    (word : List Char) : Bool :=
  let limit := Nat.pow 2 63
  let fits (base : Nat) (digits : List Char) : Bool :=
    Text.digitsValue base (digits.filter (· != '_')) < limit
  match word with
  | '0' :: 'x' :: digits => isRun Text.isHexDigit digits && fits 16 digits
  | '0' :: 'o' :: digits =>
    isRun (fun c => '0' ≤ c && c ≤ '7') digits && fits 8 digits
  | '0' :: 'b' :: digits =>
    isRun (fun c => c == '0' || c == '1') digits && fits 2 digits
  | _ => isWhole (unsigned word) && fits 10 (unsigned word)

/- An exponent, or nothing. -/
def isExponent : List Char → Bool
  | [] => true
  | mark :: rest =>
    (mark == 'e' || mark == 'E') && isRun Char.isDigit (unsigned rest)

/- A number with a point or an exponent, or one that has a name. -/
def isReal
    (word : List Char) : Bool :=
  let body := unsigned word
  let isMark (c : Char) : Bool := c == '.' || c == 'e' || c == 'E'
  let whole := body.takeWhile fun c => !isMark c
  body == ['i', 'n', 'f'] || body == ['n', 'a', 'n'] ||
    (isWhole whole &&
      match body.drop whole.length with
      | '.' :: rest =>
        let part := rest.takeWhile fun c => !isMark c
        isRun Char.isDigit part && isExponent (rest.drop part.length)
      | [] => false
      | rest => isExponent rest)

/- A value that is written without quotes and brackets. -/
def plain : Scanner Setting := do
  let word ← takeWhile fun c => isKeyPart c || c == '+' || c == '.'
  let text := String.ofList word
  if text == "true" || text == "false" || isInteger word || isReal word then
    pure .other
  else failure

/- The elements of an array behind its opening bracket. -/
def elements
    (value : Scanner Setting) : Nat → Scanner Unit
  | 0 => failure
  | steps + 1 => do
    gap
    if ← accept ']' then pure ()
    else
      let _ ← value
      gap
      if ← accept ']' then pure ()
      else
        char ','
        elements value steps

/- The entries of a table behind its opening brace. -/
def entries
    (value : Scanner Setting) : Nat → Scanner Unit
  | 0 => failure
  | steps + 1 => do
    blanks
    let _ ← key
    blanks
    char '='
    blanks
    let _ ← value
    blanks
    if ← accept '\x7d' then pure ()
    else
      char ','
      entries value steps

/- A value nested at most as deep as stated. -/
def valueUpTo : Nat → Scanner Setting
  | 0 => failure
  | depth + 1 => do
    if (← sees '"') || (← sees '\'') then
      let text ← block '"' <|> block '\'' <|> string
      pure (.text text)
    else if ← accept '[' then
      elements (valueUpTo depth) ((← get).length + 1)
      pure .other
    else if ← accept '\x7b' then
      blanks
      if ← accept '\x7d' then pure .table
      else
        entries (valueUpTo depth) ((← get).length + 1)
        pure .table
    else plain

/- A value. -/
def value : Scanner Setting := do
  valueUpTo ((← get).length + 1)

------------------------------------------------------------
-- Lines
------------------------------------------------------------

/- What a line states. -/
inductive Line
  | entry (path : List String) (setting : Setting)
  | header (path : List String)
  | arrayHeader (path : List String)

/- A line that is not blank. -/
def line : Scanner Line := do
  let stated : Line ← do
    if ← accept '[' then
      let repeated ← accept '['
      blanks
      let path ← key
      blanks
      char ']'
      if repeated then
        char ']'
        pure (.arrayHeader path)
      else pure (.header path)
    else
      let path ← key
      blanks
      char '='
      blanks
      let setting ← value
      pure (.entry path setting)
  blanks
  comment
  lineEnd
  pure stated

/- All lines, at most as many as stated. -/
def linesUpTo : Nat → Scanner (List Line)
  | 0 => failure
  | steps + 1 => do
    gap
    if (← get).isEmpty then pure []
    else
      let first ← line
      let rest ← linesUpTo steps
      pure (first :: rest)

------------------------------------------------------------
-- Settings
------------------------------------------------------------

/- Whether a path may be given a value beside the settings so far. -/
def admits
    (paths : Paths)
    (path : List String) : Bool :=
  paths.all fun (other, setting) =>
    other != path && !path.isPrefixOf other &&
      !(other.isPrefixOf path && setting != .table)

/- Whether a path may be opened beside the settings so far. -/
def opens
    (paths : Paths)
    (path : List String) : Bool :=
  paths.all fun (other, setting) =>
    other != path && !(other.isPrefixOf path && setting != .table)

/-
  The settings of lines under a header. No path is given a value
  twice, and no table is opened twice.
-/
def collect
    (under : List String)
    (paths : Paths) : List Line → Option Paths
  | [] => some paths
  | .entry path setting :: rest =>
    let path := under ++ path
    if admits paths path then
      collect under (paths ++ [(path, setting)]) rest
    else none
  | .header path :: rest =>
    if opens paths path then
      collect path (paths ++ [(path, .table)]) rest
    else none
  | .arrayHeader path :: rest =>
    let item := path ++ [toString paths.length, "item"]
    collect item (paths ++ [(item, .table)]) rest

/- A setting at the top, or the table that a longer path is in. -/
def enter
    (settings : Settings) : List String × Setting → Settings
  | ([], _) => settings
  | (key :: rest, setting) =>
    if settings.contains key then settings
    else settings.insert key (if rest.isEmpty then setting else .table)

/- The settings at the top of a text, if it is well formed. -/
def settings?
    (text : String) : Option Settings := do
  let (lines, _) ← linesUpTo (text.length + 1) text.toList
  let paths ← collect [] [] lines
  pure (paths.foldl enter .empty)

end Toml

end SchemaLang
