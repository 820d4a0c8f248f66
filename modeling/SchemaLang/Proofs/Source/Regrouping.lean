import SchemaLang.Proofs.Error
import SchemaLang.Source.Read

/-
  Chains of comparisons, and what becomes of them when they are grouped
  to the left. However a chain was nested, its operands and operators
  keep the order of the text, each operand stays as it is, and none of
  the comparisons that are left is the right side of another one.

  Main declarations:
    * `Comparison.items`
    * `Comparison.Tree` and `Comparison.Tree.build`
    * `Comparison.LeftGrouped` and `Comparison.Spanned`
    * `Comparison.regrouping_keeps_text`
    * `Comparison.leftGrouped_of_read`
-/

namespace SchemaLang

namespace Comparison

------------------------------------------------------------
-- Chains As They Are Written
------------------------------------------------------------

/-
  Whether an expression is a part of a chain rather than one operand of
  it: it is a comparison, and not in parentheses.
-/
def isLink : Expr → Bool
  | ⟨.binary op _ _, note⟩ => op.isRelational && !note.parenthesized
  | _ => false

theorem isLink_of_isRelational
    {op : BinaryOp}
    {note : Note}
    (hOp : op.isRelational = true)
    (hOpen : note.parenthesized = false)
    (left right : Expr) :
    isLink ⟨.binary op left right, note⟩ = true := by
  rw [isLink, hOp, hOpen]
  rfl

/- An operand or an operator of a chain. -/
inductive Item
  | operand (e : Expr)
  | op (op : BinaryOp)

/- The operands and operators of an expression, in the order of the text. -/
def items : Expr → List Item
  | ⟨.binary op left right, note⟩ =>
    if op.isRelational && !note.parenthesized then
      items left ++ .op op :: items right
    else [.operand ⟨.binary op left right, note⟩]
  | e => [.operand e]

theorem items_link
    {op : BinaryOp}
    {note : Note}
    (hOp : op.isRelational = true)
    (hOpen : note.parenthesized = false)
    (left right : Expr) :
    items ⟨.binary op left right, note⟩ =
      items left ++ .op op :: items right := by
  rw [items, hOp, hOpen]
  rfl

theorem items_operand
    {e : Expr}
    (hOperand : isLink e = false) :
    items e = [.operand e] := by
  unfold isLink at hOperand
  split at hOperand
  · rw [items, hOperand]
    rfl
  · rename_i hOther
    rw [items]
    exact hOther

/- A comparison in front of the parts of a right operand. -/
theorem items_group
    {op : BinaryOp}
    (hOp : op.isRelational = true)
    (left right : Expr)
    {note : Note}
    (hOpen : note.parenthesized = false) :
    items ⟨group op left right, note⟩ =
      items left ++ .op op :: items right := by
  fun_induction group op left right generalizing note with
  | case1 next inner rest inside hLinks ih =>
      simp only [Bool.and_eq_true, Bool.not_eq_true'] at hLinks
      rcases hLinks with ⟨⟨-, hNext⟩, hInside⟩
      rw [items_link hNext hOpen, ih rfl, items_link hNext hInside]
      simp only [List.append_assoc, List.cons_append]
  | case2 next inner rest inside hOther => exact items_link hOp hOpen _ _
  | case3 right hOther => exact items_link hOp hOpen _ _

------------------------------------------------------------
-- Grouping To The Left
------------------------------------------------------------

/-
  An expression whose chain is grouped to the left: on the right of each
  comparison there is one operand.
-/
inductive LeftGrouped : Expr → Prop
  | operand
      {e : Expr}
      (hOperand : isLink e = false) :
      LeftGrouped e
  | link
      {op : BinaryOp}
      {left right : Expr}
      {note : Note}
      (hLink : isLink ⟨.binary op left right, note⟩ = true)
      (hLeft : LeftGrouped left)
      (hRight : isLink right = false) :
      LeftGrouped ⟨.binary op left right, note⟩

theorem LeftGrouped.sides
    {op : BinaryOp}
    {left right : Expr}
    {note : Note}
    (hLink : isLink ⟨.binary op left right, note⟩ = true)
    (hGrouped : LeftGrouped ⟨.binary op left right, note⟩) :
    LeftGrouped left ∧ isLink right = false := by
  cases hGrouped with
  | operand hOperand =>
      rw [hLink] at hOperand
      cases hOperand
  | link _ hLeft hRight => exact ⟨hLeft, hRight⟩

/- A form stays as it is built unless its right side is a link. -/
theorem group_eq_binary
    {op : BinaryOp}
    {right : Expr}
    (hWhole : op.isRelational = false ∨ isLink right = false)
    (left : Expr) :
    group op left right = .binary op left right := by
  unfold group
  split
  · rename_i next inner rest note
    have hApart :
        ¬(op.isRelational && next.isRelational && !note.parenthesized) =
          true := by
      rcases hWhole with hOp | hRight
      · simp [hOp]
      · rw [Bool.and_assoc, show (next.isRelational && !note.parenthesized) =
          false from hRight, Bool.and_false]
        exact Bool.false_ne_true
    rw [if_neg hApart]
  · rfl

/-
  The induction goes down the left side of the right operand, which is
  itself grouped to the left: each comparison on it keeps its own right
  side and has the new one deeper on its left.
-/
theorem leftGrouped_group
    {op : BinaryOp}
    (hOp : op.isRelational = true)
    {left right : Expr}
    (hLeft : LeftGrouped left)
    (hRight : LeftGrouped right)
    {note : Note}
    (hOpen : note.parenthesized = false) :
    LeftGrouped ⟨group op left right, note⟩ := by
  have hLink :
      ∀ other, isLink ⟨.binary op left other, note⟩ = true :=
    isLink_of_isRelational hOp hOpen left
  fun_induction group op left right generalizing note with
  | case1 next inner rest inside hLinks ih =>
      simp only [Bool.and_eq_true, Bool.not_eq_true'] at hLinks
      rcases hLinks with ⟨⟨-, hNext⟩, hInside⟩
      rcases hRight.sides (isLink_of_isRelational hNext hInside _ _) with
        ⟨hInner, hRest⟩
      have hGrouped :
          LeftGrouped
            ⟨group op left inner, { span := across left inner }⟩ :=
        ih hInner rfl (isLink_of_isRelational hOp rfl left)
      exact .link (isLink_of_isRelational hNext hOpen _ _) hGrouped hRest
  | case2 next inner rest inside hOther =>
      refine .link (hLink _) hLeft ?_
      simpa [isLink, hOp] using hOther
  | case3 right hOther =>
      refine .link (hLink _) hLeft ?_
      unfold isLink
      split
      · exact (hOther _ _ _ _ rfl).elim
      · rfl

------------------------------------------------------------
-- Spans
------------------------------------------------------------

/-
  A span runs from the start of the first of some operands to the end of
  the last one.
-/
def Runs
    (span : Span)
    (text : List Item) : Prop :=
  ∃ first last,
    text.head? = some (.operand first) ∧
      text.getLast? = some (.operand last) ∧
      span.start = first.span.start ∧ span.stop = last.span.stop

/- A joined text runs from where its left to where its right side runs. -/
theorem Runs.join
    {span before behind : Span}
    {left right : List Item}
    {op : BinaryOp}
    (hLeft : Runs before left)
    (hRight : Runs behind right)
    (hStart : span.start = before.start)
    (hStop : span.stop = behind.stop) :
    Runs span (left ++ .op op :: right) := by
  rcases hLeft with ⟨first, -, hFirst, -, hFirstStart, -⟩
  rcases hRight with ⟨-, last, -, hLast, -, hLastStop⟩
  refine ⟨first, last, ?_, ?_, hStart.trans hFirstStart,
    hStop.trans hLastStop⟩
  · rw [List.head?_append, hFirst]
    rfl
  · rw [List.getLast?_append, List.getLast?_cons, hLast]
    rfl

/- Each comparison of a chain has a span that runs over its text. -/
def Spanned : Expr → Prop
  | ⟨.binary op left right, note⟩ =>
    op.isRelational = true → note.parenthesized = false →
      Runs note.span (items ⟨.binary op left right, note⟩) ∧
        Spanned left ∧ Spanned right
  | _ => True

theorem runs_of_spanned
    {e : Expr}
    (hSpanned : Spanned e) :
    Runs e.span (items e) := by
  by_cases hLink : isLink e = true
  · unfold isLink at hLink
    split at hLink
    · rename_i op left right note
      rw [Bool.and_eq_true, Bool.not_eq_true'] at hLink
      rw [Spanned] at hSpanned
      exact (hSpanned hLink.1 hLink.2).1
    · cases hLink
  · rw [Bool.not_eq_true] at hLink
    rw [items_operand hLink]
    exact ⟨e, e, rfl, rfl, rfl, rfl⟩

theorem spanned_link
    {op : BinaryOp}
    (hOp : op.isRelational = true)
    {left right : Expr}
    (hLeft : Spanned left)
    (hRight : Spanned right)
    {note : Note}
    (hOpen : note.parenthesized = false)
    (hRuns : Runs note.span (items left ++ .op op :: items right)) :
    Spanned ⟨.binary op left right, note⟩ := by
  rw [Spanned, items_link hOp hOpen]
  exact fun _ _ => ⟨hRuns, hLeft, hRight⟩

/-
  What is created on the way down runs from the new left operand to the
  end of what is joined with it.
-/
theorem spanned_group
    {op : BinaryOp}
    (hOp : op.isRelational = true)
    {left right : Expr}
    (hLeft : Spanned left)
    (hRight : Spanned right)
    {note : Note}
    (hOpen : note.parenthesized = false)
    (hRuns : Runs note.span (items left ++ .op op :: items right)) :
    Spanned ⟨group op left right, note⟩ := by
  fun_induction group op left right generalizing note with
  | case1 next inner rest inside hLinks ih =>
      simp only [Bool.and_eq_true, Bool.not_eq_true'] at hLinks
      rcases hLinks with ⟨⟨-, hNext⟩, hInside⟩
      rw [Spanned] at hRight
      rcases hRight hNext hInside with ⟨-, hInner, hRest⟩
      have hCreated :
          Runs (across left inner) (items left ++ .op op :: items inner) :=
        (runs_of_spanned hLeft).join (runs_of_spanned hInner) rfl rfl
      refine spanned_link hNext (ih hInner rfl hCreated) hRest hOpen ?_
      rw [items_group hOp left inner rfl]
      rw [items_link hNext hInside] at hRuns
      simpa only [List.append_assoc, List.cons_append] using hRuns
  | case2 next inner rest inside hOther =>
      exact spanned_link hOp hLeft hRight hOpen hRuns
  | case3 right hOther =>
      exact spanned_link hOp hLeft hRight hOpen hRuns

------------------------------------------------------------
-- Chains As They Are Built
------------------------------------------------------------

/-
  A chain as it was nested at first: a tree of comparisons, none of them
  in parentheses, with operands at its ends.
-/
inductive Tree
  | operand (e : Expr) (hOperand : isLink e = false)
  | compare (op : BinaryOp) (hOp : op.isRelational = true) (note : Note)
      (hOpen : note.parenthesized = false) (left right : Tree)

namespace Tree

/- The expression of a tree, whose comparisons are grouped bottom-up. -/
def build : Tree → Expr
  | operand e _ => e
  | compare op _ note _ left right =>
    ⟨group op left.build right.build, note⟩

/- The operands and operators of a tree, in the order of the text. -/
def text : Tree → List Item
  | operand e _ => [.operand e]
  | compare op _ _ _ left right => left.text ++ .op op :: right.text

/- Each comparison of a tree has a span that runs over its text. -/
def IsSpanned : Tree → Prop
  | operand _ _ => True
  | compare op _ note _ left right =>
    Runs note.span (left.text ++ .op op :: right.text) ∧
      left.IsSpanned ∧ right.IsSpanned

theorem items_build
    (tree : Tree) :
    items tree.build = tree.text := by
  induction tree with
  | operand e hOperand => exact items_operand hOperand
  | compare op hOp note hOpen left right ihLeft ihRight =>
      rw [build, items_group hOp _ _ hOpen, ihLeft, ihRight, text]

theorem leftGrouped_build
    (tree : Tree) :
    LeftGrouped tree.build := by
  induction tree with
  | operand e hOperand => exact .operand hOperand
  | compare op hOp note hOpen left right ihLeft ihRight =>
      exact leftGrouped_group hOp ihLeft ihRight hOpen

theorem spanned_build
    {tree : Tree}
    (hSpanned : tree.IsSpanned) :
    Spanned tree.build := by
  induction tree with
  | operand e hOperand =>
      rw [build]
      unfold Spanned
      split
      · rename_i op left right note
        intro hOp hOpen
        simp [isLink, hOp, hOpen] at hOperand
      · trivial
  | compare op hOp note hOpen left right ihLeft ihRight =>
      rcases hSpanned with ⟨hRuns, hLeft, hRight⟩
      refine spanned_group hOp (ihLeft hLeft) (ihRight hRight) hOpen ?_
      rwa [items_build, items_build]

end Tree

/-
  However the comparisons of a chain were nested, to build it bottom-up
  keeps its text, with all operands as they are, and groups it to the
  left. If the spans of the comparisons run over their texts at first,
  so they do in the end. A form is left as it is built if it does not
  compare, or if its right side is one operand.
-/
theorem regrouping_keeps_text
    (tree : Tree) :
    items tree.build = tree.text ∧
      LeftGrouped tree.build ∧
      (tree.IsSpanned → Spanned tree.build) ∧
      ∀ op left right,
        op.isRelational = false ∨ isLink right = false →
          group op left right = .binary op left right :=
  ⟨tree.items_build, tree.leftGrouped_build, Tree.spanned_build,
    fun _ left _ hWhole => group_eq_binary hWhole left⟩

/- A name at some columns of a line. -/
def nameAt
    (name : String)
    (start stop : Nat) : Expr :=
  ⟨.identifier name,
    { span := { start := { column := start }, stop := { column := stop } } }⟩

/- The text `a < b <= (c > d) < e`, nested to the right. -/
def nestedRight : Tree :=
  let note (start stop : Nat) : Note :=
    { span := { start := { column := start }, stop := { column := stop } } }
  let group : Expr :=
    ⟨.binary .gt (nameAt "c" 10 11) (nameAt "d" 14 15),
      { note 10 15 with parenthesized := true }⟩
  .compare .lt rfl (note 0 20) rfl (.operand (nameAt "a" 0 1) rfl)
    (.compare .le rfl (note 4 20) rfl (.operand (nameAt "b" 4 5) rfl)
      (.compare .lt rfl (note 10 20) rfl (.operand group rfl)
        (.operand (nameAt "e" 19 20) rfl)))

theorem isSpanned_nestedRight :
    nestedRight.IsSpanned :=
  ⟨⟨_, _, rfl, rfl, rfl, rfl⟩, trivial, ⟨_, _, rfl, rfl, rfl, rfl⟩, trivial,
    ⟨_, _, rfl, rfl, rfl, rfl⟩, trivial, trivial⟩

/-
  Two comparisons are turned to the left and get spans of their own; the
  one in parentheses is left alone.
-/
theorem regrouping_keeps_text_nestedRight :
    nestedRight.IsSpanned ∧
      Spanned nestedRight.build ∧
      LeftGrouped nestedRight.build ∧
      items nestedRight.build = nestedRight.text ∧
      ∃ inner outer group note,
        nestedRight.build =
          ⟨.binary .lt
            ⟨.binary .le
              ⟨.binary .lt (nameAt "a" 0 1) (nameAt "b" 4 5), inner⟩ group,
              outer⟩
            (nameAt "e" 19 20), note⟩ ∧
        group.note.parenthesized = true ∧
        inner.span = { start := { column := 0 }, stop := { column := 5 } } ∧
        outer.span =
          { start := { column := 0 }, stop := { column := 15 } } := by
  rcases regrouping_keeps_text nestedRight with
    ⟨hText, hGrouped, hSpanned, -⟩
  exact ⟨isSpanned_nestedRight, hSpanned isSpanned_nestedRight, hGrouped,
    hText, _, _, _, _, rfl, rfl, rfl, rfl⟩

------------------------------------------------------------
-- Chains As They Are Read
------------------------------------------------------------

theorem isLink_inParentheses
    (e : Expr) :
    isLink e.inParentheses = false := by
  rcases e with ⟨form, note⟩
  cases form with
  | binary op left right =>
      rw [Expr.inParentheses, isLink, Bool.not_true, Bool.and_false]
  | _ => rfl

/- A reading that is no link, if it succeeds. -/
def ReadsOperand
    (reading : Except ReadError Expr) : Prop :=
  ∀ e, reading = .ok e → isLink e = false

namespace ReadsOperand

theorem pure
    {e : Expr}
    (hOperand : isLink e = false) :
    ReadsOperand (Pure.pure e) := by
  intro _ hRead
  cases hRead
  exact hOperand

theorem refuse
    (placement : Placement)
    (phrase : Phrase) :
    ReadsOperand (phrase.refuse placement) :=
  nofun

theorem bind {α : Type}
    {first : Except ReadError α}
    {next : α → Except ReadError Expr}
    (hNext : ∀ a, ReadsOperand (next a)) :
    ReadsOperand (first >>= next) := by
  intro e hRead
  rcases exists_of_bind_eq_ok hRead with ⟨a, -, hRest⟩
  exact hNext a e hRest

end ReadsOperand

/- All but a phrase with a binary operator is read as one operand. -/
theorem readsOperand_of_shape
    (placement : Placement)
    (range : Range)
    (shape : Shape)
    (hShape : ∀ text left right, shape ≠ .binary text left right) :
    ReadsOperand (Phrase.read placement ⟨range, shape⟩) := by
  cases shape with
  | binary text left right => exact absurd rfl (hShape text left right)
  | parentheses parts =>
      rw [Phrase.read]
      split
      · refine .bind fun items => ?_
        split
        · exact .pure (isLink_inParentheses _)
        · exact .refuse _ _
      · exact .refuse _ _
  | unary text argument =>
      rw [Phrase.read]
      split
      · exact .bind fun _ => .pure rfl
      · exact .refuse _ _
  | name text => exact .pure rfl
  | boolean value => exact .pure rfl
  | null => exact .pure rfl
  | regex pattern flags => exact .pure rfl
  | number text => exact .bind fun _ => .pure rfl
  | string text => exact .bind fun _ => .pure rfl
  | template text => exact .bind fun _ => .pure rfl
  | member object property place => exact .bind fun _ => .pure rfl
  | object members => exact .bind fun _ => .pure rfl
  | array elements => exact .bind fun _ => .pure rfl
  | spread argument => exact .bind fun _ => .pure rfl
  | assignment target value =>
      exact .bind fun _ => .bind fun _ => .pure rfl
  | augmented op target value =>
      exact .bind fun _ => .bind fun _ => .pure rfl
  | index object key => exact .bind fun _ => .bind fun _ => .pure rfl
  | call callee arguments => exact .bind fun _ => .bind fun _ => .pure rfl
  | arrow params body => exact .bind fun _ => .bind fun _ => .pure rfl
  | ternary test consequence alternative =>
      exact .bind fun _ => .bind fun _ => .bind fun _ => .pure rfl
  | tagged template => exact .refuse _ _
  | pair key value remarks => exact .refuse _ _
  | shorthand text => exact .refuse _ _
  | computed key => exact .refuse _ _
  | foreign construct => exact .refuse _ _

/- What is read is built bottom-up, whatever the grammar has found. -/
theorem exists_build_of_read
    {placement : Placement}
    {phrase : Phrase}
    {e : Expr}
    (hRead : Phrase.read placement phrase = .ok e) :
    ∃ tree : Tree, tree.build = e := by
  rcases phrase with ⟨range, shape⟩
  cases shape with
  | binary text left right =>
      rw [Phrase.read] at hRead
      rcases exists_of_bind_eq_ok hRead with ⟨first, hFirst, hRest⟩
      rcases exists_of_bind_eq_ok hRest with ⟨second, hSecond, hBoth⟩
      rcases exists_build_of_read hFirst with ⟨before, rfl⟩
      rcases exists_build_of_read hSecond with ⟨behind, rfl⟩
      split at hBoth
      · cases hBoth
        exact ⟨.operand _ rfl, rfl⟩
      · rename_i op _ _
        cases hBoth
        by_cases hOp : op.isRelational = true
        · exact ⟨.compare op hOp _ rfl before behind, rfl⟩
        · rw [Bool.not_eq_true] at hOp
          rw [group_eq_binary (.inl hOp)]
          refine ⟨.operand _ ?_, rfl⟩
          rw [isLink, hOp, Bool.false_and]
      · cases hBoth
  | _ =>
      have hOperand : isLink e = false := by
        refine readsOperand_of_shape placement range _ ?_ e hRead
        exact fun _ _ _ => nofun
      exact ⟨.operand e hOperand, rfl⟩

/- In all that is read, comparisons are grouped to the left. -/
theorem leftGrouped_of_read
    {placement : Placement}
    {phrase : Phrase}
    {e : Expr}
    (hRead : Phrase.read placement phrase = .ok e) :
    LeftGrouped e := by
  rcases exists_build_of_read hRead with ⟨tree, rfl⟩
  exact tree.leftGrouped_build

end Comparison

end SchemaLang
