import SchemaLang.Span
import SchemaLang.Text.Class

/-
  This file prepares a source text for reading. Lines that start
  with `#` become line comments, and the text is put in
  parentheses, so that a brace at its front opens an object. Points
  of the prepared text are mapped back to positions of the text
  that was given.

  Key definitions include:
    * `Placement`
    * `Point`
    * `Range`
    * `Remark`
    * `Placement.position`
    * `Source.isBlank`
    * `Source.commentHashes`
    * `Source.wrap`
-/

namespace SchemaLang

------------------------------------------------------------
-- Points
------------------------------------------------------------

/- Where a text stands in the file that it comes from. -/
structure Placement where
  file : Option String := none
  line : Nat := 1
  column : Nat := 0
  deriving DecidableEq, Repr

/- A row of the prepared text and a number of bytes into it. -/
structure Point where
  row : Nat := 0
  column : Nat := 0
  deriving DecidableEq, Repr

namespace Point

/- The point behind a character. -/
def next
    (point : Point)
    (c : Char) : Point :=
  if c = '\n' then { row := point.row + 1, column := 0 }
  else { point with column := point.column + c.utf8Size }

/- The point behind a text. -/
def after
    (point : Point)
    (text : List Char) : Point :=
  text.foldl next point

end Point

/- The part of the prepared text between two points. -/
structure Range where
  start : Point
  stop : Point
  deriving DecidableEq, Repr

/- A comment as it is written, with its marks. -/
structure Remark where
  text : String
  range : Range
  deriving DecidableEq, Repr

namespace Placement

/- A number as a machine word holds it. -/
def word
    (n : Nat) : Nat :=
  n % Text.wordLimit

/-
  The position of a point. Only on the first row do the opening
  parenthesis and the text's own column count.
-/
def position
    (placement : Placement)
    (point : Point) : Position :=
  { line := word (placement.line + point.row)
    column :=
      if point.row = 0 then word (point.column - 1 + placement.column)
      else point.column }

/- The span of a range. -/
def span
    (placement : Placement)
    (range : Range) : Span :=
  { file := placement.file
    start := placement.position range.start
    stop := placement.position range.stop }

/- The empty span at the place where the text starts. -/
def startSpan
    (placement : Placement) : Span :=
  let start := { line := placement.line, column := placement.column }
  { file := placement.file, start := start, stop := start }

end Placement

namespace Source

------------------------------------------------------------
-- Lines
------------------------------------------------------------

/- The lines of a text, without their line feeds. -/
def splitLines : List Char → List (List Char)
  | [] => [[]]
  | c :: rest =>
    if c = '\n' then [] :: splitLines rest
    else
      match splitLines rest with
      | [] => [[c]]
      | line :: lines => (c :: line) :: lines

/- Lines put together with line feeds between them. -/
def joinLines : List (List Char) → List Char
  | [] => []
  | [line] => line
  | line :: lines => line ++ '\n' :: joinLines lines

/- Whether a line holds nothing but blanks or a line comment. -/
def isBlankLine
    (line : List Char) : Bool :=
  match Text.trim line with
  | [] => true
  | '#' :: _ => true
  | '/' :: '/' :: _ => true
  | _ => false

/- Whether a text holds nothing but blanks and line comments. -/
def isBlank
    (text : List Char) : Bool :=
  (splitLines text).all isBlankLine

/- A line that starts with `#` after blanks becomes a comment. -/
def commentLine
    (line : List Char) : List Char :=
  match Text.trimStart line with
  | '#' :: rest => line.takeWhile Text.isBlank ++ '/' :: '/' :: rest
  | _ => line

/- Make comments of all lines that start with `#`. -/
def commentHashes
    (text : List Char) : List Char :=
  joinLines ((splitLines text).map commentLine)

/- The prepared text. -/
def wrap
    (text : List Char) : List Char :=
  '(' :: commentHashes text ++ ['\n', ')']

end Source

end SchemaLang
