import Mathlib.Data.List.TakeWhile
import SchemaLang.Source.Text

/-
  Lines that start with `#`. Making comments of them changes no other
  line and no line's blankness, and doing it twice is doing it once.

  Main declarations:
    * `Source.splitLines_eq_splitOn`
    * `Source.isHashLine` and `Source.hash_cases`
    * `Source.splitLines_commentHashes`
    * `Source.commentHashes_commentHashes`
    * `Source.isBlank_commentHashes`
-/

namespace SchemaLang.Source

variable {line text : List Char}
variable {lines : List (List Char)}

------------------------------------------------------------
-- Lines Of Texts
------------------------------------------------------------

theorem splitLines_eq_splitOn
    (text : List Char) :
    splitLines text = text.splitOn '\n' := by
  induction text with
  | nil => rfl
  | cons c rest ih =>
      have hCons :
          (c :: rest).splitOn '\n' =
            if c == '\n' then [] :: rest.splitOn '\n'
            else (rest.splitOn '\n').modifyHead (List.cons c) :=
        List.splitOnP_cons_eq_if_modifyHead c rest
      rw [splitLines, ih, hCons]
      by_cases hFeed : c = '\n'
      · rw [if_pos hFeed, if_pos (beq_iff_eq.mpr hFeed)]
      · rw [if_neg hFeed, if_neg (fun h => hFeed (beq_iff_eq.mp h))]
        cases hLines : rest.splitOn '\n' with
        | nil => exact absurd hLines (List.splitOn_ne_nil _ _)
        | cons line lines => rfl

theorem joinLines_eq_intercalate
    (lines : List (List Char)) :
    joinLines lines = ['\n'].intercalate lines := by
  induction lines with
  | nil => rfl
  | cons line lines ih =>
      cases lines with
      | nil => simp [joinLines]
      | cons next lines =>
          rw [joinLines, ih, List.intercalate_cons_cons]
          · simp
          · exact List.cons_ne_nil _ _

theorem joinLines_splitLines
    (text : List Char) :
    joinLines (splitLines text) = text := by
  rw [splitLines_eq_splitOn, joinLines_eq_intercalate,
    List.intercalate_splitOn]

theorem splitLines_joinLines
    (hFeeds : ∀ line ∈ lines, '\n' ∉ line)
    (hSome : lines ≠ []) :
    splitLines (joinLines lines) = lines := by
  rw [splitLines_eq_splitOn, joinLines_eq_intercalate,
    List.splitOn_intercalate _ hFeeds hSome]

theorem splitLines_ne_nil
    (text : List Char) :
    splitLines text ≠ [] := by
  rw [splitLines_eq_splitOn]
  exact List.splitOn_ne_nil _ _

/- No line holds a line feed. -/
theorem feed_not_mem_line
    (hLine : line ∈ splitLines text) :
    '\n' ∉ line := by
  induction text generalizing line with
  | nil =>
      rw [List.mem_singleton.mp hLine]
      exact List.not_mem_nil
  | cons c rest ih =>
      rw [splitLines] at hLine
      split at hLine
      · rcases List.mem_cons.mp hLine with rfl | hRest
        · exact List.not_mem_nil
        · exact ih hRest
      · rename_i hFeed
        split at hLine
        · rw [List.mem_singleton.mp hLine]
          exact fun hMem => hFeed (List.mem_singleton.mp hMem).symm
        · rename_i first lines hLines
          rw [hLines] at ih
          rcases List.mem_cons.mp hLine with rfl | hRest
          · exact List.not_mem_cons_of_ne_of_not_mem (Ne.symm hFeed)
              (ih List.mem_cons_self)
          · exact ih (List.mem_cons_of_mem _ hRest)

------------------------------------------------------------
-- Lines That Start With A Hash
------------------------------------------------------------

/- The first character of a line that is no blank is `#`. -/
def isHashLine
    (line : List Char) : Bool :=
  (Text.trimStart line).head? == some '#'

/- The blanks that a line starts with. -/
def indent
    (line : List Char) : List Char :=
  line.takeWhile Text.isBlank

/- Such a line is its blanks, the `#` and a rest that is kept. -/
theorem hash_cases
    (line : List Char) :
    (isHashLine line = true ∧
        ∃ rest, line = indent line ++ '#' :: rest ∧
          commentLine line = indent line ++ '/' :: '/' :: rest) ∨
      isHashLine line = false ∧ commentLine line = line := by
  have hLine : indent line ++ Text.trimStart line = line :=
    List.takeWhile_append_dropWhile
  unfold isHashLine commentLine
  cases hTrim : Text.trimStart line with
  | nil => exact .inr ⟨rfl, rfl⟩
  | cons c rest =>
      by_cases hHash : c = '#'
      · subst hHash
        rw [hTrim] at hLine
        exact .inl ⟨rfl, rest, hLine.symm, rfl⟩
      · refine .inr ⟨by simpa using hHash, ?_⟩
        split
        · rename_i hOther
          cases hOther
          exact absurd rfl hHash
        · rfl

theorem commentLine_of_not_isHashLine
    (hOther : isHashLine line = false) :
    commentLine line = line := by
  rcases hash_cases line with ⟨hHash, -⟩ | ⟨-, hSame⟩
  · rw [hOther] at hHash
    cases hHash
  · exact hSame

/- What follows the blanks of a line is left of it. -/
theorem trimStart_indent_append
    {rest : List Char}
    {c : Char}
    (hOther : Text.isBlank c = false) :
    Text.trimStart (indent line ++ c :: rest) = c :: rest := by
  have hBlanks : ∀ d ∈ indent line, Text.isBlank d = true := by
    intro d hMem
    exact List.mem_takeWhile_imp hMem
  unfold Text.trimStart
  rw [List.dropWhile_append_of_pos hBlanks,
    List.dropWhile_cons_of_neg (Bool.eq_false_iff.mp hOther)]

theorem isHashLine_commentLine
    (line : List Char) :
    isHashLine (commentLine line) = false := by
  rcases hash_cases line with ⟨-, rest, -, hComment⟩ | ⟨hOther, hSame⟩
  · unfold isHashLine
    rw [hComment, trimStart_indent_append (by decide)]
    rfl
  · rw [hSame, hOther]

theorem feed_not_mem_commentLine
    (hFeed : '\n' ∉ line) :
    '\n' ∉ commentLine line := by
  rcases hash_cases line with ⟨-, rest, hLine, hComment⟩ | ⟨-, hSame⟩
  · rw [hLine] at hFeed
    rw [hComment]
    simpa using hFeed
  · rw [hSame]
    exact hFeed

------------------------------------------------------------
-- Blank Lines
------------------------------------------------------------

/- Trimming keeps what stands in front of the blanks at the end. -/
theorem exists_trim
    {front rest : List Char}
    {c : Char}
    (hOther : Text.isBlank c = false)
    (hStart : Text.trimStart line = front ++ c :: rest) :
    ∃ rest', Text.trim line = front ++ c :: rest' := by
  refine ⟨(rest.reverse.dropWhile Text.isBlank).reverse, ?_⟩
  have hReverse :
      (front ++ c :: rest).reverse = rest.reverse ++ c :: front.reverse := by
    simp
  have hDrop :
      (rest.reverse ++ c :: front.reverse).dropWhile Text.isBlank =
        rest.reverse.dropWhile Text.isBlank ++ c :: front.reverse := by
    rw [List.dropWhile_append]
    split
    · rename_i hEmpty
      rw [List.isEmpty_iff.mp hEmpty, List.nil_append,
        List.dropWhile_cons_of_neg (Bool.eq_false_iff.mp hOther)]
    · rfl
  unfold Text.trim
  rw [hStart, hReverse, Text.trimStart, hDrop]
  simp

theorem isBlankLine_commentLine
    (line : List Char) :
    isBlankLine (commentLine line) = isBlankLine line := by
  rcases hash_cases line with ⟨-, rest, hLine, hComment⟩ | ⟨-, hSame⟩
  · have hHash : isBlankLine line = true := by
      have hStart : Text.trimStart line = [] ++ '#' :: rest := by
        rw [hLine, trimStart_indent_append (by decide)]
        rfl
      obtain ⟨rest', hTrim⟩ := exists_trim (by decide) hStart
      unfold isBlankLine
      rw [hTrim]
      rfl
    have hSlashes : isBlankLine (commentLine line) = true := by
      have hStart :
          Text.trimStart (commentLine line) = ['/'] ++ '/' :: rest := by
        rw [hComment, trimStart_indent_append (by decide)]
        rfl
      obtain ⟨rest', hTrim⟩ := exists_trim (by decide) hStart
      unfold isBlankLine
      rw [hTrim]
      rfl
    rw [hHash, hSlashes]
  · rw [hSame]

------------------------------------------------------------
-- Texts
------------------------------------------------------------

/- Making comments works on each line by itself. -/
theorem splitLines_commentHashes
    (text : List Char) :
    splitLines (commentHashes text) =
      (splitLines text).map commentLine := by
  unfold commentHashes
  refine splitLines_joinLines ?_ ?_
  · intro line hLine
    obtain ⟨line', hLine', rfl⟩ := List.mem_map.mp hLine
    exact feed_not_mem_commentLine (feed_not_mem_line hLine')
  · exact fun hNone => splitLines_ne_nil text (List.map_eq_nil_iff.mp hNone)

/- A line that starts with `#` is changed there only, others are kept. -/
theorem getElem?_commentHashes
    {row : Nat}
    (hLine : (splitLines text)[row]? = some line) :
    (isHashLine line = false →
        (splitLines (commentHashes text))[row]? = some line) ∧
      (isHashLine line = true →
        ∃ rest, line = indent line ++ '#' :: rest ∧
          (splitLines (commentHashes text))[row]? =
            some (indent line ++ '/' :: '/' :: rest)) := by
  rw [splitLines_commentHashes, List.getElem?_map, hLine, Option.map_some]
  rcases hash_cases line with
    ⟨hHash, rest, hRest, hComment⟩ | ⟨hOther, hSame⟩
  · rw [hComment, hHash]
    exact ⟨nofun, fun _ => ⟨rest, hRest, rfl⟩⟩
  · rw [hSame, hOther]
    exact ⟨fun _ => rfl, nofun⟩

theorem commentHashes_commentHashes
    (text : List Char) :
    commentHashes (commentHashes text) = commentHashes text := by
  have hTwice : commentLine ∘ commentLine = commentLine :=
    funext fun line =>
      commentLine_of_not_isHashLine (isHashLine_commentLine line)
  rw [commentHashes, splitLines_commentHashes, List.map_map, hTwice]
  rfl

theorem isBlank_commentHashes
    (text : List Char) :
    isBlank (commentHashes text) = isBlank text := by
  unfold isBlank
  rw [splitLines_commentHashes, List.all_map]
  congr 1
  exact funext isBlankLine_commentLine

end SchemaLang.Source
