import SchemaLang.Source.Phrase

/-
  This file defines what a parser makes of a prepared text: the
  statements and the comments at its top, or what is wrong with it.
  Which texts are grammatical is left to the parser.

  Key definitions include:
    * `Child`
    * `Sentence`
    * `Outline`
    * `Flaw`
    * `Parsed`
    * `Parse`
-/

namespace SchemaLang

------------------------------------------------------------
-- Statements
------------------------------------------------------------

/- What stands in a row below a node: only elements have a name. -/
inductive Child (α : Type)
  | comment (remark : Remark)
  | semicolon (range : Range)
  | element (item : α)

namespace Child

/- The elements of a row. -/
def elements {α : Type}
    (children : List (Child α)) : List α :=
  children.filterMap fun child =>
    match child with
    | element item => some item
    | _ => none

end Child

/- A statement: an expression, or a construct that is none. -/
inductive Sentence
  | expression (range : Range) (children : List (Child Phrase))
  | other (construct : String) (range : Range)

namespace Sentence

/- The place of a statement. -/
def range : Sentence → Range
  | expression range _ => range
  | other _ range => range

/- The expression of a statement, if it holds one. -/
def content? : Sentence → Option Phrase
  | expression _ children => (Child.elements children).head?
  | other _ _ => none

end Sentence

/- The top of a text. -/
structure Outline where
  range : Range
  children : List (Child Sentence)

namespace Outline

/- The statements of a text. -/
def sentences
    (outline : Outline) : List Sentence :=
  Child.elements outline.children

end Outline

------------------------------------------------------------
-- Flaws
------------------------------------------------------------

/-
  Where a text is not grammatical: a construct is missing, some text
  has no place, or something below is flawed.
-/
inductive Flaw
  | missing (construct : String) (range : Range)
  | unexpected (text : List Char) (range : Range)
  | within (flaws : List Flaw)

namespace Flaw

mutual

/- The first flaw in the order of the text that has a place. -/
def first? : Flaw → Option Flaw
  | missing construct range => some (missing construct range)
  | unexpected text range => some (unexpected text range)
  | within flaws => firstOfAll? flaws

/- The first flaw of a row. -/
def firstOfAll? : List Flaw → Option Flaw
  | [] => none
  | flaw :: rest => (first? flaw).or (firstOfAll? rest)

end

end Flaw

------------------------------------------------------------
-- Parsers
------------------------------------------------------------

/-
  What a parser makes of a text. A parser may tell what is wrong
  with a text, or only that it is not grammatical.
-/
inductive Parsed
  | whole (outline : Outline)
  | flawed (range : Range) (flaw : Flaw)
  | ungrammatical

/- A parser, which may fail to start. -/
abbrev Parse := List Char → Except String Parsed

end SchemaLang
