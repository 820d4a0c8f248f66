/-
  This file defines places in a source text and the comments that
  were written there.

  Key definitions include:
    * `Position`
    * `Span`
    * `Span.lines`
    * `Span.place`
    * `Comment`
    * `Comments`
    * `Comments.preferred`
-/

namespace SchemaLang

------------------------------------------------------------
-- Places
------------------------------------------------------------

/- A line and the number of bytes before the place on that line. -/
structure Position where
  line : Nat := 0
  column : Nat := 0
  deriving DecidableEq, Repr

/- The part of a text between two positions, with the file's name. -/
structure Span where
  file : Option String := none
  start : Position := {}
  stop : Position := {}
  deriving DecidableEq, Repr

namespace Span

/- The span from the start of one line to the start of another. -/
def lines
    (first last : Nat) : Span :=
  { start := { line := first }, stop := { line := last } }

/- The start of a span as it is shown in messages. -/
def place
    (span : Span) : String :=
  let here := toString span.start.line ++ ":" ++ toString span.start.column
  match span.file with
  | some file => file ++ ":" ++ here
  | none => here

end Span

------------------------------------------------------------
-- Comments
------------------------------------------------------------

/- The text of a comment without its marks, and its place. -/
structure Comment where
  text : String
  span : Span
  deriving DecidableEq, Repr

/- The comments that belong to one expression or member. -/
structure Comments where
  leading : List Comment := []
  trailing : List Comment := []
  deriving DecidableEq, Repr

namespace Comments

/- Whether there is no comment at all. -/
def isEmpty
    (comments : Comments) : Bool :=
  comments.leading.isEmpty && comments.trailing.isEmpty

/- The comments in front if there are any, else those behind. -/
def preferred
    (comments : Comments) : List Comment :=
  if comments.leading.isEmpty then comments.trailing
  else comments.leading

end Comments

end SchemaLang
