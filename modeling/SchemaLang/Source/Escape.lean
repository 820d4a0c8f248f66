import SchemaLang.Text.Class

/-
  This file resolves the escapes of quoted literals.

  Key definitions include:
    * `Escape.unescape?`
-/

namespace SchemaLang.Escape

/- The character with a code point, or the replacement character. -/
def charOf
    (code : Nat) : Char :=
  if h : code.isValidChar then Char.ofNatAux code h
  else Char.ofNat 0xFFFD

/- The value of hexadecimal digits that fit a word of 32 bits. -/
def hexValue?
    (digits : List Char) : Option Nat :=
  Text.word? 16 (Nat.pow 2 32) digits

/- Whether a code point is the first half of a surrogate pair. -/
def isHigh
    (code : Nat) : Bool :=
  0xD800 ≤ code && code < 0xDC00

/- Whether a code point is the second half of a surrogate pair. -/
def isLow
    (code : Nat) : Bool :=
  0xDC00 ≤ code && code < 0xE000

/-
  The code point of four hexadecimal digits, and the rest. The
  first half of a surrogate pair takes the second half with it when
  that is written behind it in the same way.
-/
def unit?
    (text : List Char) : Option (Nat × List Char) :=
  match hexValue? (text.take 4) with
  | none => none
  | some high =>
    let rest := text.drop 4
    if isHigh high then
      match rest with
      | '\\' :: 'u' :: more =>
        match hexValue? (more.take 4) with
        | some low =>
          if isLow low then
            some (0x10000 + (high - 0xD800) * 0x400 + (low - 0xDC00),
              more.drop 4)
          else some (high, rest)
        | none => some (high, rest)
      | _ => some (high, rest)
    else some (high, rest)

/- The code point written between braces, and the rest. -/
def braced?
    (text : List Char) : Option (Nat × List Char) :=
  let digits := text.takeWhile (· != '\x7d')
  match hexValue? digits with
  | none => none
  | some code => some (code, text.drop (digits.length + 1))

/- The character that a letter stands for behind a backslash. -/
def named?
    (c : Char) : Option Char :=
  if c = 'n' then some '\n'
  else if c = 't' then some '\t'
  else if c = 'r' then some '\r'
  else if c = 'b' then some '\x08'
  else if c = 'f' then some '\x0c'
  else if c = 'v' then some '\x0b'
  else if c = '0' then some '\x00'
  else none

/-
  What follows a backslash: the characters it stands for and the
  rest of the text.
-/
def escape?
    (text : List Char) : Option (List Char × List Char) :=
  match text with
  | [] => none
  | '\n' :: rest => some ([], rest)
  | '\r' :: '\n' :: rest => some ([], rest)
  | '\r' :: rest => some ([], rest)
  | 'x' :: rest =>
    match hexValue? (rest.take 2) with
    | some code => some ([charOf code], rest.drop 2)
    | none => none
  | 'u' :: '\x7b' :: rest =>
    match braced? rest with
    | some (code, rest) => some ([charOf code], rest)
    | none => none
  | 'u' :: rest =>
    match unit? rest with
    | some (code, rest) => some ([charOf code], rest)
    | none => none
  | c :: rest =>
    match named? c with
    | some named => some ([named], rest)
    | none => some ([c], rest)

/- Resolve escapes, at most as many as there are steps. -/
def resolve? : Nat → List Char → Option (List Char)
  | _, [] => some []
  | 0, _ :: _ => none
  | steps + 1, c :: rest =>
    if c = '\\' then
      match escape? rest with
      | none => none
      | some (chars, rest) => (resolve? steps rest).map (chars ++ ·)
    else (resolve? steps rest).map (c :: ·)

/- The text that the body of a quoted literal stands for. -/
def unescape?
    (body : List Char) : Option (List Char) :=
  resolve? body.length body

end SchemaLang.Escape
