import SchemaLang.Source.Grammar.Statement

/-
  This file finds the statements of a prepared text.

  Key definitions include:
    * `Grammar.rules`
    * `Grammar.statements?`
    * `Grammar.parse`
-/

namespace SchemaLang.Grammar

/- The rules, nested at most as deep as stated. -/
def rules : Nat → Rules
  | 0 => .none
  | depth + 1 =>
    { expression := fun pending typed cursor =>
        expression (rules depth) pending typed cursor
      target := fun cursor => target (rules depth) cursor
      pattern := fun cursor => pattern (rules depth) cursor
      typing := fun ending cursor => typing (rules depth) ending cursor
      statement := fun cursor => statement (rules depth) cursor }

/- The statements of a prepared text, if it is grammatical. -/
def statements?
    (objects : Bool)
    (text : List Char) : Option (List Sentence) := do
  let tokens ← Token.scan objects text
  let rules := rules (4 * (tokens.length + 4))
  let (statements, cursor) ←
    Parser.many rules.statement { ahead := tokens }
  if cursor.ahead.isEmpty then some statements else none

/-
  The parser of the grammar. Comments between statements are left
  out, and nothing is told about a text that is not grammatical.
-/
def parse : Parse := fun text =>
  match (statements? true text).or (statements? false text) with
  | some statements =>
    .ok (.whole
      { range := ⟨{}, Point.after {} text⟩
        children := statements.map .element })
  | none => .ok .ungrammatical

end SchemaLang.Grammar
