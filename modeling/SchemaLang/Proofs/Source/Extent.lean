import Mathlib.Data.List.Infix
import SchemaLang.Source.Read

/-
  How much of a text is read. A parser is only assumed to lay out
  what it finds: statements and comments lie one behind the other,
  with nothing but blanks between them. Then the text is read to its
  end exactly if it is one statement; what stands behind the first
  statement is not looked at.

  Key definitions include:
    * `Child.Lies`
    * `Sentence.Covers`
    * `Parse.LaysOut`

  Main declarations:
    * `Outline.exists_of_read`
    * `Child.Lies.eq_nil_of_suffix`
    * `Expr.read_to_end_iff`
    * `Expr.rest_not_read`
-/

namespace SchemaLang

------------------------------------------------------------
-- Layout
------------------------------------------------------------

/-
  A text on one line that does not start with a closing parenthesis,
  as all comments do that end with their line.
-/
def OnLine
    (text : List Char) : Prop :=
  '\n' ∉ text ∧ text.head? ≠ some ')'

namespace Remark

/-
  A comment is the text from a point on, which ends with its line or
  with a closing mark.
-/
def Covers
    (remark : Remark)
    (start : Point)
    (text : List Char) : Prop :=
  remark.text.toList = text ∧ remark.range = ⟨start, start.after text⟩ ∧
    ((∃ body, text = '/' :: '/' :: body ∧ OnLine text) ∨
      ∃ body, text = '/' :: '*' :: body ++ ['*', '/'])

end Remark

namespace Child

variable {α : Type}

/- What stands in a row is the text from a point on. -/
def Covers
    (covers : α → Point → List Char → Prop)
    (start : Point)
    (text : List Char) : Child α → Prop
  | comment remark => remark.Covers start text
  | semicolon range => text = [';'] ∧ range = ⟨start, start.after text⟩
  | element item => text ≠ [] ∧ covers item start text

/-
  A row makes up the text from a point on, with nothing but blanks
  before, between and behind.
-/
inductive Lies
    (covers : α → Point → List Char → Prop) :
    Point → List (Child α) → List Char → Prop
  | nil
      {start : Point}
      {blank : List Char}
      (hBlank : ∀ c ∈ blank, Text.isSpace c = true) :
      Lies covers start [] blank
  | cons
      {start : Point}
      {blank text rest : List Char}
      {child : Child α}
      {children : List (Child α)}
      (hBlank : ∀ c ∈ blank, Text.isSpace c = true)
      (hChild : child.Covers covers (start.after blank) text)
      (hRest :
        Lies covers ((start.after blank).after text) children rest) :
      Lies covers start (child :: children) (blank ++ (text ++ rest))

end Child

namespace Phrase

/- Whether a phrase is in parentheses. -/
def IsGroup
    (phrase : Phrase) : Prop :=
  ∃ parts, phrase.shape = .parentheses parts

/- Whether a phrase is a comment of the older kind. -/
def IsMarkup
    (phrase : Phrase) : Prop :=
  phrase.shape = .foreign "html_comment"

/- A phrase is the text from a point on. -/
def Covers
    (phrase : Phrase)
    (start : Point)
    (text : List Char) : Prop :=
  phrase.range = ⟨start, start.after text⟩ ∧
    (phrase.IsGroup → ∃ inner, text = '(' :: inner ++ [')']) ∧
    (phrase.IsMarkup → OnLine text)

end Phrase

namespace Sentence

/-
  A statement is the text from a point on. Behind an expression there
  are only a semicolon and comments in it.
-/
def Covers
    (statement : Sentence)
    (start : Point)
    (text : List Char) : Prop :=
  statement.range = ⟨start, start.after text⟩ ∧
    match statement with
    | expression _ children =>
      Child.Lies Phrase.Covers start children text ∧
        ∀ phrase ∈ (Child.elements children).tail, phrase.IsMarkup
    | other _ _ => True

end Sentence

/- Where a parser finds an outline, it lies in the text. -/
def Parse.LaysOut
    (parse : Parse)
    (text : List Char) : Prop :=
  ∀ outline, parse text = .ok (.whole outline) →
    Child.Lies Sentence.Covers {} outline.children text

------------------------------------------------------------
-- Fronts And Ends
------------------------------------------------------------

namespace Child

variable {α : Type}
variable {covers : α → Point → List Char → Prop}
variable {start : Point}
variable {child : Child α}
variable {children : List (Child α)}
variable {text : List Char}

/- A row of one element that is the whole text. -/
theorem Lies.single
    {item : α}
    (hText : text ≠ [])
    (hItem : covers item start text) :
    Lies covers start [element item] text := by
  have hLies : Lies covers start [element item] ([] ++ (text ++ [])) :=
    .cons (fun _ hMem => absurd hMem List.not_mem_nil) ⟨hText, hItem⟩
      (.nil (fun _ hMem => absurd hMem List.not_mem_nil))
  rwa [List.nil_append, List.append_nil] at hLies

theorem elements_append
    (children others : List (Child α)) :
    elements (children ++ others) = elements children ++ elements others :=
  List.filterMap_append

theorem Covers.ne_nil
    (hChild : child.Covers covers start text) :
    text ≠ [] := by
  cases child with
  | comment remark =>
      rcases hChild with ⟨_, _, ⟨body, rfl, _⟩ | ⟨body, rfl⟩⟩ <;>
        exact List.cons_ne_nil _ _
  | semicolon range =>
      rw [hChild.1]
      exact List.cons_ne_nil _ _
  | element item => exact hChild.1

/- A row in an empty text is empty. -/
theorem Lies.children_eq_nil
    (hLies : Lies covers start children []) :
    children = [] := by
  generalize hText : ([] : List Char) = text at hLies
  cases hLies with
  | nil => rfl
  | cons hBlank hChild hRest =>
      have hEmpty := (List.append_eq_nil_iff.mp hText.symm).2
      exact absurd (List.append_eq_nil_iff.mp hEmpty).1 hChild.ne_nil

/-
  Where a text starts with a parenthesis, a row starts with an
  element.
-/
theorem Lies.exists_element
    (hLies : Lies covers start children ('(' :: text)) :
    ∃ item others front rest,
      children = element item :: others ∧
        '(' :: text = '(' :: front ++ rest ∧
        covers item start ('(' :: front) ∧
        Lies covers (start.after ('(' :: front)) others rest := by
  generalize hText : '(' :: text = whole at hLies
  cases hLies with
  | nil hBlank =>
      subst hText
      exact absurd (hBlank '(' (List.mem_cons_self ..)) (by decide)
  | @cons _ blank piece rest child others hBlank hChild hRest =>
      -- The parenthesis is no blank, so the row starts at the point.
      rcases blank with _ | ⟨c, blank⟩
      · rcases piece with _ | ⟨c, front⟩
        · exact absurd rfl hChild.ne_nil
        · obtain ⟨rfl, rfl⟩ := List.cons.inj hText
          cases child with
          | comment remark =>
              rcases hChild with ⟨_, _, ⟨_, hMark, _⟩ | ⟨_, hMark⟩⟩ <;>
                exact absurd (List.cons.inj hMark).1 (by decide)
          | semicolon range =>
              exact absurd (List.cons.inj hChild.1).1 (by decide)
          | element item =>
              exact ⟨item, others, front, rest, rfl, rfl, hChild.2, hRest⟩
      · obtain ⟨rfl, _⟩ := List.cons.inj hText
        exact absurd (hBlank '(' (List.mem_cons_self ..)) (by decide)

/- What is left of such a text ends with the parenthesis. -/
theorem exists_concat_of_suffix
    {front : List Char}
    (hEnd : ['\n', ')'] <:+ front ++ text)
    (hText : text ≠ []) :
    ∃ init, text = init ++ [')'] := by
  rcases List.eq_nil_or_concat text with rfl | ⟨init, c, rfl⟩
  · exact absurd rfl hText
  · obtain ⟨before, hBefore⟩ := hEnd
    have hLast : (before ++ ['\n']) ++ [')'] = (front ++ init) ++ [c] := by
      simpa using hBefore
    rw [(List.append_inj' hLast rfl).2]
    exact ⟨init, List.concat_eq_append ..⟩

/- What is left of it is not on one line, unless it is the last. -/
theorem not_onLine_of_suffix
    {front : List Char}
    (hEnd : ['\n', ')'] <:+ front ++ text)
    (hText : text ≠ []) :
    ¬ OnLine text := by
  rintro ⟨hFeed, hHead⟩
  rcases List.suffix_or_suffix_of_suffix hEnd (List.suffix_append _ _) with
    hEnd | hPart
  · exact hFeed (hEnd.subset (List.mem_cons_self ..))
  · rcases List.suffix_cons_iff.mp hPart with rfl | hPart
    · exact hFeed (List.mem_cons_self ..)
    · rcases List.suffix_cons_iff.mp hPart with rfl | hPart
      · exact hHead rfl
      · exact hText (List.suffix_nil.mp hPart)

/- Nothing that keeps to its line reaches the last parenthesis. -/
theorem Covers.not_suffix
    (hChild : child.Covers covers start text)
    (hElements :
      ∀ item ∈ elements [child],
        ∀ start text, covers item start text → OnLine text)
    (front : List Char) :
    ¬ ['\n', ')'] <:+ front ++ text := by
  intro hEnd
  have hLine := not_onLine_of_suffix hEnd hChild.ne_nil
  obtain ⟨init, hInit⟩ := exists_concat_of_suffix hEnd hChild.ne_nil
  cases child with
  | comment remark =>
      rcases hChild with ⟨_, _, ⟨_, _, hOnLine⟩ | ⟨body, hBody⟩⟩
      · exact hLine hOnLine
      · have hLast : '/' :: '*' :: body ++ ['*'] ++ ['/'] = init ++ [')'] := by
          simpa using hBody.symm.trans hInit
        exact absurd (List.append_inj' hLast rfl).2 (by decide)
  | semicolon range =>
      have hLast : [] ++ [';'] = init ++ [')'] := hChild.1.symm.trans hInit
      exact absurd (List.append_inj' hLast rfl).2 (by decide)
  | element item =>
      exact hLine (hElements item (List.mem_cons_self ..) _ _ hChild.2)

/-
  A row whose elements keep to their lines does not reach a closing
  parenthesis on a line of its own.
-/
theorem Lies.eq_nil_of_suffix
    (hLies : Lies covers start children text)
    (hElements :
      ∀ item ∈ elements children,
        ∀ start text, covers item start text → OnLine text)
    (front : List Char)
    (hEnd : ['\n', ')'] <:+ front ++ text) :
    text = [] := by
  induction hLies generalizing front with
  | @nil start blank hBlank =>
      by_contra hText
      obtain ⟨init, rfl⟩ := exists_concat_of_suffix hEnd hText
      exact absurd (hBlank ')' (by simp)) (by decide)
  | @cons start blank text rest child children hBlank hChild hRest ih =>
      have hElements' :
          ∀ item ∈ elements [child] ++ elements children,
            ∀ start text, covers item start text → OnLine text := by
        rwa [← elements_append]
      rw [List.forall_mem_append] at hElements'
      obtain rfl : rest = [] := by
        refine ih hElements'.2 (front ++ blank ++ text) ?_
        simpa using hEnd
      refine absurd ?_ (hChild.not_suffix hElements'.1 (front ++ blank))
      simpa using hEnd

end Child

/-
  A statement that starts with the parenthesis of a group: behind
  the group there is nothing that leaves its line.
-/
theorem Sentence.Covers.exists_group
    {statement : Sentence}
    {start : Point}
    {front : List Char}
    {range : Range}
    {parts : List (Part Phrase)}
    (hCovers : statement.Covers start ('(' :: front))
    (hContent : statement.content? = some ⟨range, .parentheses parts⟩) :
    ∃ inner children tail,
      '(' :: front = '(' :: inner ++ ')' :: tail ∧
        range = ⟨start, start.after ('(' :: inner ++ [')'])⟩ ∧
        Child.Lies Phrase.Covers (start.after ('(' :: inner ++ [')']))
          children tail ∧
        ∀ phrase ∈ Child.elements children, phrase.IsMarkup := by
  cases statement with
  | other construct place => cases hContent
  | expression place children =>
      obtain ⟨_, hLies, hMarkup⟩ := hCovers
      obtain ⟨group, others, piece, tail, rfl, hFront, hGroup, hOthers⟩ :=
        hLies.exists_element
      obtain rfl : group = ⟨range, .parentheses parts⟩ :=
        Option.some.inj hContent
      obtain ⟨hRange, hBrackets, _⟩ := hGroup
      obtain ⟨inner, hPiece⟩ := hBrackets ⟨parts, rfl⟩
      rw [hPiece] at hFront hRange hOthers
      exact ⟨inner, others, tail, by simpa using hFront, hRange, hOthers,
        hMarkup⟩

------------------------------------------------------------
-- Outlines
------------------------------------------------------------

namespace Outline

variable {placement : Placement}
variable {outline other : Outline}
variable {first : Sentence}
variable {e : Expr}

/- Only the first statement counts. -/
theorem read_eq_of_head?
    (hFirst : outline.sentences.head? = some first)
    (hOther : other.sentences.head? = some first) :
    other.read placement = outline.read placement := by
  obtain ⟨others, hFirst⟩ := List.head?_eq_some_iff.mp hFirst
  obtain ⟨rest, hOther⟩ := List.head?_eq_some_iff.mp hOther
  unfold read
  rw [hFirst, hOther]
  cases first <;> rfl

/- It holds one expression in parentheses. -/
theorem exists_of_read
    (hRead : outline.read placement = .ok e) :
    ∃ first others range parts,
      outline.sentences = first :: others ∧
        first.content? = some ⟨range, .parentheses parts⟩ ∧
        (Part.elements parts).length = 1 := by
  unfold read at hRead
  rcases hStatements : outline.sentences with _ | ⟨first, others⟩
  · rw [hStatements] at hRead
    cases hRead
  · rw [hStatements] at hRead
    cases first with
    | other construct range => cases hRead
    | expression range children =>
        dsimp only at hRead
        rcases hElements : Child.elements children with
          _ | ⟨⟨place, shape⟩, rest⟩
        · rw [hElements] at hRead
          cases hRead
        · rw [hElements] at hRead
          cases shape with
          | parentheses parts =>
              refine ⟨_, others, place, parts, rfl, ?_, ?_⟩
              · rw [Sentence.content?, hElements, List.head?_cons]
              · dsimp only at hRead
                split at hRead
                · rename_i hParts
                  rw [hParts, List.length_singleton]
                · cases hRead
          | _ => cases hRead

end Outline

namespace Expr

variable {parse : Parse}
variable {placement : Placement}
variable {text : String}
variable {e : Expr}

theorem exists_outline_of_read
    (hRead : readWith parse placement text = .ok e) :
    ∃ outline,
      parse (Source.wrap text.toList) = .ok (.whole outline) ∧
        outline.read placement = .ok e := by
  unfold readWith at hRead
  dsimp only at hRead
  split at hRead
  · cases hRead
  · split at hRead
    · cases hRead
    · rename_i parsed hParsed
      cases parsed with
      | whole outline => exact ⟨outline, hParsed, hRead⟩
      | flawed range flaw => cases hRead
      | ungrammatical => cases hRead

/-
  For every text that is accepted, the prepared text starts with a
  group in parentheses, and the first statement alone, which holds
  the group, gives the result. It is the only statement exactly if
  nothing stands behind the parenthesis that closes the group.
-/
theorem read_to_end_iff
    (hLaysOut : parse.LaysOut (Source.wrap text.toList))
    (hRead : readWith parse placement text = .ok e) :
    ∃ outline first others range parts inner rest,
      parse (Source.wrap text.toList) = .ok (.whole outline) ∧
        outline.sentences = first :: others ∧
        first.content? = some ⟨range, .parentheses parts⟩ ∧
        (Part.elements parts).length = 1 ∧
        Source.wrap text.toList = '(' :: inner ++ ')' :: rest ∧
        range = ⟨{}, Point.after {} ('(' :: inner ++ [')'])⟩ ∧
        (∀ other : Outline, other.sentences.head? = some first →
          other.read placement = .ok e) ∧
        (others = [] ↔ rest = []) := by
  obtain ⟨outline, hParse, hRead⟩ := exists_outline_of_read hRead
  obtain ⟨first, others, range, parts, hStatements, hContent, hParts⟩ :=
    Outline.exists_of_read hRead
  have hHead : outline.sentences.head? = some first := by
    rw [hStatements, List.head?_cons]
  -- The first child of the root is the first statement.
  obtain ⟨statement, children, front, behind, hChildren, hWrap, hFirst,
      hBehind⟩ :=
    (hLaysOut outline hParse).exists_element
  obtain ⟨rfl, rfl⟩ : statement = first ∧ Child.elements children = others := by
    rw [Outline.sentences, hChildren] at hStatements
    exact List.cons.inj hStatements
  obtain ⟨inner, fillers, tail, hFront, hRange, hTail, hMarkup⟩ :=
    hFirst.exists_group hContent
  have hText :
      Source.wrap text.toList = '(' :: inner ++ ')' :: (tail ++ behind) :=
    calc Source.wrap text.toList
      _ = '(' :: front ++ behind := hWrap
      _ = '(' :: inner ++ ')' :: (tail ++ behind) := by
          rw [hFront, List.append_assoc, List.cons_append, List.cons_append,
            List.cons_append]
  have hEnd :
      ['\n', ')'] <:+ ('(' :: inner ++ [')'] ++ tail) ++ behind := by
    refine ⟨'(' :: Source.commentHashes text.toList, ?_⟩
    simpa [Source.wrap] using hText
  refine ⟨outline, statement, _, range, parts, inner, tail ++ behind, hParse,
    hStatements, hContent, hParts, hText, hRange,
    fun other hOther => (Outline.read_eq_of_head? hHead hOther).trans hRead,
    fun hNone => ?_, fun hEmpty => ?_⟩
  · obtain rfl : behind = [] := by
      refine hBehind.eq_nil_of_suffix ?_ _ hEnd
      rw [hNone]
      exact fun _ hMem => absurd hMem List.not_mem_nil
    rw [List.append_nil] at hEnd ⊢
    exact hTail.eq_nil_of_suffix
      (fun phrase hMem _ _ hCovers => hCovers.2.2 (hMarkup phrase hMem)) _ hEnd
  · rw [(List.append_eq_nil_iff.mp hEmpty).2] at hBehind
    rw [hBehind.children_eq_nil]
    rfl

/- A name in parentheses. -/
def group
    (range : Range)
    (name : String)
    (place : Range) : Phrase :=
  ⟨range, .parentheses [.element ⟨place, .name name⟩]⟩

/- The outline of a name. -/
def oneName : Outline where
  range := ⟨⟨0, 0⟩, ⟨1, 1⟩⟩
  children :=
    [.element (.expression ⟨⟨0, 0⟩, ⟨1, 1⟩⟩
      [.element (group ⟨⟨0, 0⟩, ⟨1, 1⟩⟩ "a" ⟨⟨0, 1⟩, ⟨0, 2⟩⟩)])]

/- The outline of two names with parentheses between them. -/
def twoNames : Outline where
  range := ⟨⟨0, 0⟩, ⟨1, 1⟩⟩
  children :=
    [.element (.expression ⟨⟨0, 0⟩, ⟨0, 4⟩⟩
        [.element (group ⟨⟨0, 0⟩, ⟨0, 3⟩⟩ "a" ⟨⟨0, 1⟩, ⟨0, 2⟩⟩),
          .semicolon ⟨⟨0, 3⟩, ⟨0, 4⟩⟩]),
      .element (.expression ⟨⟨0, 4⟩, ⟨1, 1⟩⟩
        [.element (group ⟨⟨0, 4⟩, ⟨1, 1⟩⟩ "b" ⟨⟨0, 5⟩, ⟨0, 6⟩⟩)])]

theorem covers_group
    {range place : Range}
    {name : String}
    {start : Point}
    (inner : List Char)
    (hRange : range = ⟨start, start.after ('(' :: inner ++ [')'])⟩) :
    (group range name place).Covers start ('(' :: inner ++ [')']) :=
  ⟨hRange, fun _ => ⟨inner, rfl⟩, nofun⟩

theorem lies_oneName :
    Child.Lies Sentence.Covers {} oneName.children
      (Source.wrap "a".toList) :=
  .single (by decide)
    ⟨by decide, .single (by decide) (covers_group "a\n".toList rfl), nofun⟩

theorem lies_twoNames :
    Child.Lies Sentence.Covers {} twoNames.children
      (Source.wrap "a);(b".toList) := by
  have hFirst :
      Child.Lies Phrase.Covers {}
        [.element (group ⟨⟨0, 0⟩, ⟨0, 3⟩⟩ "a" ⟨⟨0, 1⟩, ⟨0, 2⟩⟩),
          .semicolon ⟨⟨0, 3⟩, ⟨0, 4⟩⟩]
        ([] ++ ("(a)".toList ++ ([] ++ (";".toList ++ [])))) :=
    .cons nofun ⟨by decide, covers_group ['a'] rfl⟩
      (.cons nofun ⟨rfl, rfl⟩ (.nil nofun))
  have hSecond :
      Child.Lies Sentence.Covers ⟨0, 4⟩ (twoNames.children.drop 1)
        "(b\n)".toList :=
    .single (by decide)
      ⟨by decide, .single (by decide) (covers_group "b\n".toList rfl), nofun⟩
  have hAll :
      Child.Lies Sentence.Covers {} twoNames.children
        ([] ++ ("(a);".toList ++ "(b\n)".toList)) :=
    .cons nofun ⟨by decide, by decide, hFirst, nofun⟩ hSecond
  exact hAll

/- A parser that always finds one name. -/
def oneNameParse : Parse := fun _ =>
  .ok (.whole oneName)

theorem laysOut_oneNameParse :
    oneNameParse.LaysOut (Source.wrap "a".toList) := by
  intro outline hParse
  cases hParse
  exact lies_oneName

theorem read_to_end_iff_name :
    ∃ outline first others range parts inner rest,
      oneNameParse (Source.wrap "a".toList) = .ok (.whole outline) ∧
        outline.sentences = first :: others ∧
        first.content? = some ⟨range, .parentheses parts⟩ ∧
        (Part.elements parts).length = 1 ∧
        Source.wrap "a".toList = '(' :: inner ++ ')' :: rest ∧
        range = ⟨{}, Point.after {} ('(' :: inner ++ [')'])⟩ ∧
        (∀ other : Outline, other.sentences.head? = some first →
          other.read {} =
            .ok ⟨.identifier "a", { span := ⟨none, ⟨1, 0⟩, ⟨1, 1⟩⟩ }⟩) ∧
        (others = [] ↔ rest = []) :=
  read_to_end_iff laysOut_oneNameParse rfl

/-
  A text that closes the parenthesis early: it is laid out as two
  statements, and the second one is not looked at.
-/
theorem rest_not_read :
    Child.Lies Sentence.Covers {} twoNames.children
        (Source.wrap "a);(b".toList) ∧
      twoNames.sentences.length = 2 ∧
      ∀ parse : Parse,
        parse (Source.wrap "a);(b".toList) = .ok (.whole twoNames) →
          readWith parse {} "a);(b" =
            .ok ⟨.identifier "a", { span := ⟨none, ⟨1, 0⟩, ⟨1, 1⟩⟩ }⟩ := by
  refine ⟨lies_twoNames, rfl, fun parse hParse => ?_⟩
  have hBlank : Source.isBlank "a);(b".toList = false := by decide
  rw [readWith, hBlank, hParse]
  rfl

end Expr

end SchemaLang
