import SchemaLang.Number.Literal
import SchemaLang.Source.Attachment
import SchemaLang.Source.Comparison
import SchemaLang.Source.Escape
import SchemaLang.Source.Outline

/-
  This file reads expressions from text, with a parser that finds
  the statements of the prepared text.

  Key definitions include:
    * `ReadError`
    * `Phrase.read`
    * `Outline.read`
    * `Parsed.read`
    * `Expr.readWith`
-/

namespace SchemaLang

------------------------------------------------------------
-- Errors
------------------------------------------------------------

/- Why a text is no expression. -/
inductive ReadError
  | setup (reason : String)
  | grammar
  | missing (construct : String) (span : Span)
  | unexpected (token : Option Char) (span : Span)
  | flawed (span : Span)
  | empty (span : Span)
  | notSingle (span : Span)
  | numberRange (text : String) (span : Span)
  | numberForm (text : String) (span : Span)
  | escape (span : Span)
  | unsupported (construct : String) (span : Span)
  deriving DecidableEq, Repr

namespace ReadError

/- The message of an error. -/
def message : ReadError → String
  | setup reason => "reader initialization failed: " ++ reason
  | grammar => "syntax error"
  | missing construct _ => "Missing " ++ construct
  | unexpected (some c) _ =>
    "Unexpected token '" ++ String.ofList [c] ++ "'"
  | unexpected none _ => "Unexpected token"
  | flawed _ => "Syntax error"
  | empty _ => "Empty expression"
  | notSingle _ => "Expected a single expression"
  | numberRange text _ => "Number literal out of range: " ++ text
  | numberForm text _ => "Invalid number literal: " ++ text
  | escape _ => "Invalid escape sequence"
  | unsupported construct _ => "unsupported syntax: " ++ construct

/- The place of an error, if the parser told one. -/
def span? : ReadError → Option Span
  | setup _ => none
  | grammar => none
  | missing _ span => some span
  | unexpected _ span => some span
  | flawed span => some span
  | empty span => some span
  | notSingle span => some span
  | numberRange _ span => some span
  | numberForm _ span => some span
  | escape span => some span
  | unsupported _ span => some span

end ReadError

------------------------------------------------------------
-- Comments
------------------------------------------------------------

namespace Remark

/- The text of a comment without its marks and outer blanks. -/
def body
    (remark : Remark) : String :=
  match remark.text.toList with
  | '/' :: '/' :: rest => String.ofList (Text.trim rest)
  | '/' :: '*' :: rest =>
    String.ofList (Text.trim (rest.take (rest.length - 2)))
  | text => String.ofList (Text.trim text)

/- The comment that was written. -/
def comment
    (placement : Placement)
    (remark : Remark) : Comment :=
  { text := remark.body, span := placement.span remark.range }

end Remark

namespace Attached

/- The comments that belong to an element. -/
def comments {α : Type}
    (placement : Placement)
    (attached : Attached α) : Comments :=
  { leading := attached.leading.map (Remark.comment placement)
    trailing := attached.trailing.map (Remark.comment placement) }

/- An expression with the comments that belong to it. -/
def expr
    (placement : Placement)
    (attached : Attached Expr) : Expr :=
  attached.item.withComments (attached.comments placement)

/-
  A member with the comments that belong to it. The comments within
  a pair stand behind all others.
-/
def member
    (placement : Placement)
    (attached : Attached Member) : Member :=
  let outer := attached.comments placement
  match attached.item with
  | .property key computed value span inner =>
    .property key computed value span
      { outer with trailing := outer.trailing ++ inner.trailing }
  | .spread e => .spread (e.withComments outer)

end Attached

------------------------------------------------------------
-- Literals
------------------------------------------------------------

namespace Phrase

/- The error for a phrase that the language has no use for. -/
def refuse {α : Type}
    (placement : Placement)
    (phrase : Phrase) : Except ReadError α :=
  .error (.unsupported phrase.construct (placement.span phrase.range))

/- The value of a number literal. -/
def readNumber
    (text : String)
    (span : Span) : Except ReadError Binary64 :=
  match Literal.value? text.toList with
  | none => .error (.numberForm text span)
  | some value =>
    if value.isFinite then .ok value
    else .error (.numberRange text span)

/- The text of a literal between quotes. -/
def readQuoted
    (text : String)
    (span : Span) : Except ReadError String :=
  match Escape.unescape? (text.toList.drop 1).dropLast with
  | none => .error (.escape span)
  | some body => .ok (String.ofList body)

/- The key that an expression in brackets stands for. -/
def computedKey
    (inner : Expr) : Key :=
  match inner.form with
  | .identifier name => .identifier name
  | .string value => .string value
  | .number value => .number value
  | .regex pattern flags => .regex pattern flags
  | _ => .expression inner

end Phrase

------------------------------------------------------------
-- Phrases
------------------------------------------------------------

mutual

/-
  The expression of a phrase. Operands are read in the order of
  the text, and the first error counts.
-/
def Phrase.read
    (placement : Placement) : Phrase → Except ReadError Expr
  | ⟨range, shape⟩ =>
    let span := placement.span range
    let expr (form : Form) : Expr := ⟨form, { span := span }⟩
    match shape with
    | .parentheses parts => do
      match Part.elements parts with
      | [_] =>
        let items ← Phrase.readParts placement parts
        match Part.elements items with
        | [inner] => pure inner.inParentheses
        | _ => Phrase.refuse placement ⟨range, .parentheses parts⟩
      | _ => Phrase.refuse placement ⟨range, .parentheses parts⟩
    | .name text => pure (expr (.identifier text))
    | .number text => do
      let value ← Phrase.readNumber text span
      pure (expr (.number value))
    | .string text => do
      let value ← Phrase.readQuoted text span
      pure (expr (.string value))
    | .template text => do
      let value ← Phrase.readQuoted text span
      pure (expr (.string value))
    | .boolean value => pure (expr (.boolean value))
    | .null => pure (expr .null)
    | .regex pattern flags => pure (expr (.regex pattern flags))
    | .binary text left right => do
      let left' ← Phrase.read placement left
      let right' ← Phrase.read placement right
      match LogicalOp.ofText? text, BinaryOp.ofText? text with
      | some op, _ => pure (expr (.logical op left' right'))
      | none, some op => pure (expr (Comparison.group op left' right'))
      | none, none => Phrase.refuse placement ⟨range, .binary text left right⟩
    | .unary text argument =>
      match UnaryOp.ofText? text with
      | some op => do
        let argument' ← Phrase.read placement argument
        pure (expr (.unary op argument'))
      | none => Phrase.refuse placement ⟨range, .unary text argument⟩
    | .assignment target value => do
      let target' ← Phrase.read placement target
      let value' ← Phrase.read placement value
      pure (expr (.assignment .assign target' value'))
    | .augmented text target value => do
      let target' ← Phrase.read placement target
      let value' ← Phrase.read placement value
      pure (expr (.assignment (.compound text) target' value'))
    | .ternary test consequence alternative => do
      let test' ← Phrase.read placement test
      let consequence' ← Phrase.read placement consequence
      let alternative' ← Phrase.read placement alternative
      pure (expr (.conditional test' consequence' alternative'))
    | .member object property place => do
      let object' ← Phrase.read placement object
      let name : Expr :=
        ⟨.identifier property, { span := placement.span place }⟩
      pure (expr (.member object' name false))
    | .index object key => do
      let object' ← Phrase.read placement object
      let key' ← Phrase.read placement key
      pure (expr (.member object' key' true))
    | .call callee arguments => do
      let callee' ← Phrase.read placement callee
      let arguments' ← Phrase.readParts placement arguments
      pure (expr (.call callee'
        ((Attached.ofParts arguments').map (Attached.expr placement))))
    | .tagged template =>
      Phrase.refuse placement ⟨template, .foreign "template_string"⟩
    | .arrow params body => do
      let params' ← Phrase.readAll placement params
      let body' ← Phrase.read placement body
      pure (expr (.arrow params' body'))
    | .object members => do
      let members' ← Phrase.readMembers placement members
      pure (expr (.object
        ((Attached.ofParts members').map (Attached.member placement))))
    | .array elements => do
      let elements' ← Phrase.readParts placement elements
      pure (expr (.array
        ((Attached.ofParts elements').map (Attached.expr placement))))
    | .spread argument => do
      let argument' ← Phrase.read placement argument
      pure (expr (.spread argument'))
    | .pair key value remarks =>
      Phrase.refuse placement ⟨range, .pair key value remarks⟩
    | .shorthand text => Phrase.refuse placement ⟨range, .shorthand text⟩
    | .computed key => Phrase.refuse placement ⟨range, .computed key⟩
    | .foreign construct =>
      Phrase.refuse placement ⟨range, .foreign construct⟩

/- The expressions of phrases. -/
def Phrase.readAll
    (placement : Placement) :
    List Phrase → Except ReadError (List Expr)
  | [] => pure []
  | phrase :: rest => do
    let first ← Phrase.read placement phrase
    let others ← Phrase.readAll placement rest
    pure (first :: others)

/- The parts of a list, its elements read as expressions. -/
def Phrase.readParts
    (placement : Placement) :
    List (Part Phrase) → Except ReadError (List (Part Expr))
  | [] => pure []
  | .comment remark :: rest => do
    let others ← Phrase.readParts placement rest
    pure (.comment remark :: others)
  | .comma :: rest => do
    let others ← Phrase.readParts placement rest
    pure (.comma :: others)
  | .element phrase :: rest => do
    let first ← Phrase.read placement phrase
    let others ← Phrase.readParts placement rest
    pure (.element first :: others)

/- The parts of an object, its elements read as members. -/
def Phrase.readMembers
    (placement : Placement) :
    List (Part Phrase) → Except ReadError (List (Part Member))
  | [] => pure []
  | .comment remark :: rest => do
    let others ← Phrase.readMembers placement rest
    pure (.comment remark :: others)
  | .comma :: rest => do
    let others ← Phrase.readMembers placement rest
    pure (.comma :: others)
  | .element phrase :: rest => do
    let first ← Phrase.readMember placement phrase
    let others ← Phrase.readMembers placement rest
    pure (.element first :: others)

/- The member of a phrase; the value of a pair is read first. -/
def Phrase.readMember
    (placement : Placement) : Phrase → Except ReadError Member
  | ⟨range, shape⟩ =>
    let span := placement.span range
    match shape with
    | .pair key value remarks => do
      let value' ← Phrase.read placement value
      let (key', computed) ← Phrase.readKey placement key
      pure (.property key' computed value' span
        { trailing := remarks.map (Remark.comment placement) })
    | .shorthand text =>
      pure (.property (.identifier text) false
        ⟨.identifier text, { span := span }⟩ span {})
    | .spread argument => do
      let argument' ← Phrase.read placement argument
      pure (.spread ⟨.spread argument', { span := span }⟩)
    | other => Phrase.refuse placement ⟨range, other⟩

/- The key of a phrase, and whether it is in brackets. -/
def Phrase.readKey
    (placement : Placement) : Phrase → Except ReadError (Key × Bool)
  | ⟨range, shape⟩ =>
    let span := placement.span range
    match shape with
    | .name text => pure (.identifier text, false)
    | .string text => do
      let value ← Phrase.readQuoted text span
      pure (.string value, false)
    | .number text => do
      let value ← Phrase.readNumber text span
      pure (.number value, false)
    | .computed inner => do
      let inner' ← Phrase.read placement inner
      pure (Phrase.computedKey inner', true)
    | other => Phrase.refuse placement ⟨range, other⟩

end

------------------------------------------------------------
-- Texts
------------------------------------------------------------

namespace Outline

/-
  The expression of a prepared text: what its first statement holds
  in parentheses. No other statement is looked at.
-/
def read
    (placement : Placement)
    (outline : Outline) : Except ReadError Expr :=
  match outline.sentences with
  | [] => .error (.empty (placement.span outline.range))
  | .other construct range :: _ =>
    .error (.unsupported construct (placement.span range))
  | .expression range children :: _ =>
    match Child.elements children with
    | [] => .error (.empty (placement.span range))
    | ⟨range, .parentheses parts⟩ :: _ => do
      let notSingle := ReadError.notSingle (placement.span range)
      match Part.elements parts with
      | [_] =>
        let items ← Phrase.readParts placement parts
        match Attached.ofParts items with
        | [attached] => pure (attached.expr placement)
        | _ => throw notSingle
      | _ => throw notSingle
    | phrase :: _ => phrase.refuse placement

end Outline

namespace Flaw

/- The error for a flaw within a text. -/
def error
    (placement : Placement)
    (range : Range)
    (flaw : Flaw) : ReadError :=
  match flaw.first? with
  | some (missing construct range) =>
    .missing construct (placement.span range)
  | some (unexpected text range) =>
    .unexpected text.head? (placement.span range)
  | _ => .flawed (placement.span range)

end Flaw

namespace Parsed

/- The expression of what a parser made of a prepared text. -/
def read
    (placement : Placement) : Parsed → Except ReadError Expr
  | whole outline => outline.read placement
  | flawed range flaw => .error (flaw.error placement range)
  | ungrammatical => .error .grammar

end Parsed

namespace Expr

/- The expression that a text holds, as a parser sees it. -/
def readWith
    (parse : Parse)
    (placement : Placement)
    (text : String) : Except ReadError Expr :=
  let chars := text.toList
  if Source.isBlank chars then .error (.empty placement.startSpan)
  else
    match parse (Source.wrap chars) with
    | .error reason => .error (.setup reason)
    | .ok parsed => parsed.read placement

end Expr

end SchemaLang
