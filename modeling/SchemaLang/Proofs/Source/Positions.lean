import Mathlib.Data.Bool.Basic
import SchemaLang.Proofs.Source.Lines

/-
  Positions refer to the text that was given. The byte at an offset of a
  text has a place in the prepared text, behind the parenthesis and one
  byte further for each `#` in front of it that became two slashes. The
  position of that place is the one that the byte has in the text, up to
  and with the `#` on a line that starts with one.

  Main declarations:
    * `Source.bytes` and `Source.pointAt`
    * `Source.isPastHash` and `Source.preparedOffset`
    * `Point.behind` and `Point.after_behind`
    * `Source.At` and `Source.At.commented`
    * `Source.At.getElem?_commented`
    * `Source.positions_refer_to_text`
-/

namespace SchemaLang

------------------------------------------------------------
-- Points Of Bytes
------------------------------------------------------------

namespace Point

/-
  The point behind bytes: the line feeds among them, and the bytes since
  the last of these.
-/
def behind
    (bytes : List UInt8) : Point :=
  { row := bytes.count 10
    column := (bytes.reverse.takeWhile (· != 10)).length }

variable {bytes front : List UInt8}

theorem takeWhile_of_not_mem
    (hFeed : 10 ∉ bytes) :
    bytes.takeWhile (· != 10) = bytes := by
  rw [List.takeWhile_eq_self_iff]
  intro byte hMem
  exact bne_iff_ne.mpr (ne_of_mem_of_not_mem hMem hFeed)

/- Bytes without a line feed are on the first row. -/
theorem behind_of_not_mem
    (hFeed : 10 ∉ bytes) :
    behind bytes = ⟨0, bytes.length⟩ := by
  have hFeed' : 10 ∉ bytes.reverse := by simpa using hFeed
  unfold behind
  rw [List.count_eq_zero.mpr hFeed, takeWhile_of_not_mem hFeed',
    List.length_reverse]

/- Without a line feed, bytes are on the row on which they start. -/
theorem behind_append_of_not_mem
    (hFeed : 10 ∉ bytes) :
    behind (front ++ bytes) =
      ⟨(behind front).row, (behind front).column + bytes.length⟩ := by
  have hFeed' : ∀ byte ∈ bytes.reverse, (byte != 10) = true := by
    intro byte hMem
    exact bne_iff_ne.mpr
      (ne_of_mem_of_not_mem (List.mem_reverse.mp hMem) hFeed)
  unfold behind
  rw [List.count_append, List.count_eq_zero.mpr hFeed, List.reverse_append,
    List.takeWhile_append_of_pos hFeed', List.length_append,
    List.length_reverse, Nat.add_comm bytes.length]
  rfl

theorem takeWhile_append_feed :
    (bytes ++ 10 :: front).takeWhile (· != 10) =
      bytes.takeWhile (· != 10) := by
  rw [List.takeWhile_append]
  split
  · rename_i hAll
    rw [List.takeWhile_cons_of_neg (by decide), List.append_nil]
    exact ((List.takeWhile_prefix _).eq_of_length hAll).symm
  · rfl

/- Behind a line feed, columns are counted anew. -/
theorem behind_append_feed
    (hFeed : 10 ∉ front) :
    behind (front ++ 10 :: bytes) =
      ⟨(behind bytes).row + 1, (behind bytes).column⟩ := by
  have hCount : (front ++ 10 :: bytes).count 10 = bytes.count 10 + 1 := by
    rw [List.count_append, List.count_eq_zero.mpr hFeed,
      List.count_cons_self, Nat.zero_add]
  have hReverse :
      (front ++ 10 :: bytes).reverse =
        bytes.reverse ++ 10 :: front.reverse := by
    simp
  unfold behind
  rw [hCount, hReverse, takeWhile_append_feed]

/- A byte in front of all others moves the first row only. -/
theorem behind_cons
    {byte : UInt8}
    (hOther : byte ≠ 10) :
    behind (byte :: bytes) =
      ⟨(behind bytes).row,
        (behind bytes).column + if (behind bytes).row = 0 then 1 else 0⟩ := by
  by_cases hFeed : 10 ∈ bytes
  · obtain ⟨line, rest, rfl, hLine⟩ := List.eq_append_cons_of_mem hFeed
    rw [← List.cons_append, behind_append_feed hLine, behind_append_feed
      (List.not_mem_cons_of_ne_of_not_mem hOther.symm hLine)]
    rfl
  · rw [behind_of_not_mem hFeed, behind_of_not_mem
      (List.not_mem_cons_of_ne_of_not_mem hOther.symm hFeed)]
    rfl

end Point

namespace Source

------------------------------------------------------------
-- Bytes
------------------------------------------------------------

/- The bytes of a text. -/
def bytes
    (text : List Char) : List UInt8 :=
  text.flatMap String.utf8EncodeChar

theorem bytes_append
    (front text : List Char) :
    bytes (front ++ text) = bytes front ++ bytes text :=
  List.flatMap_append

theorem bytes_cons
    (c : Char)
    (text : List Char) :
    bytes (c :: text) = String.utf8EncodeChar c ++ bytes text :=
  List.flatMap_cons

/- No other character has the byte of a line feed. -/
theorem feed_mem_encode
    {c : Char}
    (hByte : 10 ∈ String.utf8EncodeChar c) :
    c = '\n' := by
  have hTen : ∀ n < 256, (10 : UInt8) = UInt8.ofNat n → n = 10 := by
    intro n hByte hSame
    have hNat := congrArg UInt8.toNat hSame
    rw [UInt8.toNat_ofNat', Nat.mod_eq_of_lt hByte] at hNat
    exact hNat.symm
  unfold String.utf8EncodeChar at hByte
  dsimp only at hByte
  split at hByte
  · have hNat := hTen _ (by omega) (List.mem_singleton.mp hByte)
    exact Char.ext (UInt32.toNat_inj.mp hNat)
  · -- All bytes of longer codes have their highest bit set.
    have hHigh : ∀ n, 128 ≤ n → n < 256 → (10 : UInt8) ≠ UInt8.ofNat n := by
      intro n hLow hLess hSame
      have hNat := hTen n hLess hSame
      omega
    exfalso
    split at hByte
    · simp only [List.mem_cons, List.not_mem_nil, or_false] at hByte
      rcases hByte with hByte | hByte <;>
        exact hHigh _ (by omega) (by omega) hByte
    · split at hByte
      · simp only [List.mem_cons, List.not_mem_nil, or_false] at hByte
        rcases hByte with hByte | hByte | hByte <;>
          exact hHigh _ (by omega) (by omega) hByte
      · simp only [List.mem_cons, List.not_mem_nil, or_false] at hByte
        rcases hByte with hByte | hByte | hByte | hByte <;>
          exact hHigh _ (by omega) (by omega) hByte

theorem feed_not_mem_bytes
    {text : List Char}
    (hFeed : '\n' ∉ text) :
    10 ∉ bytes text := by
  intro hByte
  obtain ⟨c, hMem, hByte⟩ := List.mem_flatMap.mp hByte
  rw [feed_mem_encode hByte] at hMem
  exact hFeed hMem

/- The bytes behind the first of some lines, its line feed included. -/
def bytesBehind : List (List Char) → List UInt8
  | [] => []
  | line :: lines => 10 :: bytes (joinLines (line :: lines))

theorem bytes_joinLines
    (line : List Char)
    (lines : List (List Char)) :
    bytes (joinLines (line :: lines)) = bytes line ++ bytesBehind lines := by
  cases lines with
  | nil => exact (List.append_nil _).symm
  | cons next lines =>
      rw [joinLines, bytes_append]
      · rfl
      · exact List.cons_ne_nil _ _

theorem bytesBehind_of_ne_nil
    {lines : List (List Char)}
    (hSome : lines ≠ []) :
    bytesBehind lines = 10 :: bytes (joinLines lines) := by
  cases lines with
  | nil => exact absurd rfl hSome
  | cons line lines => rfl

end Source

namespace Point

/- A character moves the point by its bytes. -/
theorem next_behind
    (front : List UInt8)
    (c : Char) :
    next (behind front) c = behind (front ++ String.utf8EncodeChar c) := by
  unfold next
  split
  · rename_i hFeed
    rw [hFeed, show String.utf8EncodeChar '\n' = [10] from rfl]
    unfold behind
    simp
  · rename_i hOther
    have hBytes : 10 ∉ String.utf8EncodeChar c := fun hByte =>
      hOther (Source.feed_mem_encode hByte)
    rw [behind_append_of_not_mem hBytes, String.length_utf8EncodeChar]

/- The reader counts rows and columns in bytes. -/
theorem after_behind
    (front : List UInt8)
    (text : List Char) :
    after (behind front) text = behind (front ++ Source.bytes text) := by
  induction text generalizing front with
  | nil =>
      rw [Source.bytes, List.flatMap_nil, List.append_nil]
      rfl
  | cons c text ih =>
      rw [after, List.foldl_cons, next_behind, Source.bytes_cons,
        ← List.append_assoc]
      exact ih _

end Point

namespace Source

variable {line text : List Char}
variable {lines : List (List Char)}
variable {offset : Nat}
variable {point : Point}

------------------------------------------------------------
-- Offsets
------------------------------------------------------------

/- The point of the byte at an offset of a text. -/
def pointAt
    (text : List Char)
    (offset : Nat) : Point :=
  Point.behind ((bytes text).take offset)

/- A point is behind the `#` on a line that starts with it. -/
def isPastHash
    (lines : List (List Char))
    (point : Point) : Bool :=
  match lines[point.row]? with
  | some line =>
    isHashLine line && (bytes (indent line)).length < point.column
  | none => false

/- How many lines start with a `#` that is in front of a point. -/
def hashesBefore
    (lines : List (List Char))
    (point : Point) : Nat :=
  (lines.take point.row).countP isHashLine +
    (isPastHash lines point).toNat

/-
  Where the byte at an offset of a text stands in the prepared text:
  behind the parenthesis, and one byte further for each `#` in front of
  it that became two slashes.
-/
def preparedOffset
    (text : List Char)
    (offset : Nat) : Nat :=
  1 + (offset + hashesBefore (splitLines text) (pointAt text offset))

theorem isPastHash_first
    (column : Nat) :
    isPastHash (line :: lines) ⟨0, column⟩ =
      (isHashLine line && (bytes (indent line)).length < column) :=
  rfl

theorem hashesBefore_first
    (column : Nat) :
    hashesBefore (line :: lines) ⟨0, column⟩ =
      (isPastHash (line :: lines) ⟨0, column⟩).toNat :=
  Nat.zero_add _

theorem hashesBefore_later
    (row column : Nat) :
    hashesBefore (line :: lines) ⟨row + 1, column⟩ =
      (isHashLine line).toNat + hashesBefore lines ⟨row, column⟩ := by
  have hPast :
      isPastHash (line :: lines) ⟨row + 1, column⟩ =
        isPastHash lines ⟨row, column⟩ := rfl
  unfold hashesBefore
  dsimp only
  rw [hPast, List.take_succ_cons, List.countP_cons]
  cases isHashLine line with
  | true =>
      rw [if_pos rfl, Bool.toNat_true]
      omega
  | false =>
      rw [if_neg Bool.false_ne_true, Bool.toNat_false]
      omega

/- The bytes of a line that starts with a `#`, and of the comment. -/
theorem bytes_hash_cases
    (line : List Char) :
    (isHashLine line = true ∧
        ∃ rest, bytes line = bytes (indent line) ++ 35 :: rest ∧
          bytes (commentLine line) =
            bytes (indent line) ++ 47 :: 47 :: rest) ∨
      isHashLine line = false ∧ bytes (commentLine line) = bytes line := by
  rcases hash_cases line with
    ⟨hHash, rest, hLine, hComment⟩ | ⟨hOther, hSame⟩
  · refine .inl ⟨hHash, bytes rest, ?_, ?_⟩
    · have hBytes := congrArg bytes hLine
      rw [bytes_append] at hBytes
      exact hBytes
    · rw [hComment, bytes_append]
      rfl
  · exact .inr ⟨hOther, by rw [hSame]⟩

theorem length_bytes_commentLine
    (line : List Char) :
    (bytes (commentLine line)).length =
      (bytes line).length + (isHashLine line).toNat := by
  rcases bytes_hash_cases line with
    ⟨hHash, rest, hLine, hComment⟩ | ⟨hOther, hSame⟩
  · rw [hHash, hLine, hComment, List.length_append, List.length_append,
      List.length_cons, List.length_cons, List.length_cons,
      Bool.toNat_true]
    omega
  · rw [hOther, hSame, Bool.toNat_false, Nat.add_zero]

theorem getElem?_behind
    (front bytes : List UInt8)
    (byte : UInt8)
    (offset : Nat) :
    (front ++ byte :: bytes)[front.length + 1 + offset]? =
      bytes[offset]? := by
  rw [Nat.add_assoc, List.getElem?_append_right (Nat.le_add_right _ _),
    Nat.add_sub_cancel_left, Nat.add_comm 1, List.getElem?_cons_succ]

/- Up to the end of a line, what follows matters only where it starts. -/
theorem getElem?_append_bytesBehind
    (front : List UInt8)
    (lines : List (List Char))
    (hOffset : offset ≤ front.length) :
    (front ++ bytesBehind (lines.map commentLine))[offset]? =
      (front ++ bytesBehind lines)[offset]? := by
  rcases Nat.lt_or_eq_of_le hOffset with hWithin | rfl
  · rw [List.getElem?_append_left hWithin,
      List.getElem?_append_left hWithin]
  · rw [List.getElem?_append_right le_rfl,
      List.getElem?_append_right le_rfl, Nat.sub_self]
    cases lines <;> rfl

/- The bytes of the first line, and those of the comment it becomes. -/
theorem getElem?_commentLine
    (lines : List (List Char))
    (hOffset : offset ≤ (bytes line).length) :
    (bytes (commentLine line) ++
          bytesBehind (lines.map commentLine))[offset +
            (isPastHash (line :: lines) ⟨0, offset⟩).toNat]? =
        (bytes line ++ bytesBehind lines)[offset]? ∨
      (bytes line ++ bytesBehind lines)[offset]? = some 35 ∧
        (bytes (commentLine line) ++
          bytesBehind (lines.map commentLine))[offset +
            (isPastHash (line :: lines) ⟨0, offset⟩).toNat]? = some 47 := by
  rw [isPastHash_first]
  rcases bytes_hash_cases line with
    ⟨hHash, rest, hLine, hComment⟩ | ⟨hOther, hSame⟩
  · rw [hLine, List.length_append, List.length_cons] at hOffset
    rw [hHash, Bool.true_and, hLine, hComment]
    rcases Nat.lt_trichotomy offset (bytes (indent line)).length with
      hBlank | hAt | hBehind
    · rw [decide_eq_false (by omega), Bool.toNat_false, Nat.add_zero,
        List.append_assoc, List.append_assoc,
        List.getElem?_append_left hBlank, List.getElem?_append_left hBlank]
      exact .inl rfl
    · rw [hAt, decide_eq_false (Nat.lt_irrefl _), Bool.toNat_false,
        Nat.add_zero, List.append_assoc, List.append_assoc,
        List.getElem?_append_right le_rfl,
        List.getElem?_append_right le_rfl, Nat.sub_self]
      exact .inr ⟨rfl, rfl⟩
    · obtain ⟨behind, rfl⟩ := Nat.exists_eq_add_of_le hBehind
      rw [decide_eq_true (by omega), Bool.toNat_true, List.append_assoc,
        List.append_assoc, Nat.succ_eq_add_one, List.cons_append,
        List.cons_append, List.cons_append, getElem?_behind, Nat.add_assoc,
        getElem?_behind, List.getElem?_cons_succ]
      exact .inl (getElem?_append_bytesBehind rest lines (by omega))
  · rw [hOther, Bool.false_and, Bool.toNat_false, Nat.add_zero, hSame]
    exact .inl (getElem?_append_bytesBehind _ lines hOffset)

/- Behind the first line, a byte moves by what was added to the line. -/
theorem moved_later
    (offset row column : Nat) :
    (bytes line).length + 1 + offset +
        hashesBefore (line :: lines) ⟨row + 1, column⟩ =
      (bytes (commentLine line)).length + 1 +
        (offset + hashesBefore lines ⟨row, column⟩) := by
  rw [hashesBefore_later, length_bytes_commentLine]
  omega

------------------------------------------------------------
-- Offsets By Lines
------------------------------------------------------------

/-
  An offset in lines with line feeds between them, and its point: it is
  within or at the end of the first line, or behind its line feed.
-/
inductive At : List (List Char) → Nat → Point → Prop
  | first {line : List Char} {lines : List (List Char)} {offset : Nat} :
      '\n' ∉ line → offset ≤ (bytes line).length →
        At (line :: lines) offset ⟨0, offset⟩
  | later {line : List Char} {lines : List (List Char)}
      {offset row column : Nat} :
      '\n' ∉ line → At lines offset ⟨row, column⟩ →
        At (line :: lines) ((bytes line).length + 1 + offset)
          ⟨row + 1, column⟩

namespace At

theorem ne_nil
    (hAt : At lines offset point) :
    lines ≠ [] := by
  cases hAt <;> exact List.cons_ne_nil _ _

theorem le_length
    (hAt : At lines offset point) :
    offset ≤ (bytes (joinLines lines)).length := by
  induction hAt with
  | first _ hOffset =>
      rw [bytes_joinLines, List.length_append]
      omega
  | later _ hRest ih =>
      rw [bytes_joinLines, bytesBehind_of_ne_nil hRest.ne_nil,
        List.length_append, List.length_cons]
      omega

/- The point is that of the byte. -/
theorem pointAt_eq
    (hAt : At lines offset point) :
    pointAt (joinLines lines) offset = point := by
  induction hAt with
  | first hFeed hOffset =>
      have hFeed' := feed_not_mem_bytes hFeed
      unfold pointAt
      rw [bytes_joinLines, List.take_append_of_le_length hOffset,
        Point.behind_of_not_mem (fun hMem =>
          hFeed' (List.mem_of_mem_take hMem)),
        List.length_take_of_le hOffset]
  | @later line lines offset row column hFeed hRest ih =>
      unfold pointAt at ih ⊢
      have hTake :
          (bytes line ++ 10 :: bytes (joinLines lines)).take
              ((bytes line).length + 1 + offset) =
            bytes line ++ 10 :: (bytes (joinLines lines)).take offset := by
        rw [Nat.add_assoc, List.take_length_add_append, Nat.add_comm 1,
          List.take_succ_cons]
      rw [bytes_joinLines, bytesBehind_of_ne_nil hRest.ne_nil, hTake,
        Point.behind_append_feed (feed_not_mem_bytes hFeed), ih]

/- Up to the `#` of its line, a byte keeps its point. -/
theorem commented
    (hAt : At lines offset point)
    (hPast : isPastHash lines point = false) :
    At (lines.map commentLine) (offset + hashesBefore lines point) point := by
  induction hAt with
  | @first line lines offset hFeed hOffset =>
      have hOffset' : offset ≤ (bytes (commentLine line)).length := by
        rw [length_bytes_commentLine]
        omega
      rw [hashesBefore_first, hPast]
      exact .first (feed_not_mem_commentLine hFeed) hOffset'
  | @later line lines offset row column hFeed _ ih =>
      rw [moved_later]
      exact .later (feed_not_mem_commentLine hFeed) (ih hPast)

/- The `#` in front of a byte are also in front of every later one. -/
theorem hashesBefore_le
    {later : Nat}
    {point' : Point}
    (hAt : At lines offset point)
    (hAt' : At lines later point')
    (hLess : offset < later) :
    hashesBefore lines point ≤ hashesBefore lines point' := by
  induction hAt generalizing later point' with
  | @first line lines offset _ hOffset =>
      rw [hashesBefore_first, isPastHash_first]
      cases hAt' with
      | first _ hLater =>
          rw [hashesBefore_first, isPastHash_first]
          refine Bool.toNat_le_toNat fun hPast => ?_
          rw [Bool.and_eq_true, decide_eq_true_iff] at hPast ⊢
          exact ⟨hPast.1, hPast.2.trans hLess⟩
      | later _ _ =>
          rw [hashesBefore_later]
          refine le_trans (Bool.toNat_le_toNat ?_) (Nat.le_add_right _ _)
          exact Bool.and_elim_left
  | @later line lines offset row column _ _ ih =>
      cases hAt' with
      | first _ hLater => omega
      | later _ hRest =>
          rw [hashesBefore_later, hashesBefore_later]
          exact Nat.add_le_add_left (ih hRest (by omega)) _

/- A byte is kept, save a `#` that becomes a slash. -/
theorem getElem?_commented
    (hAt : At lines offset point) :
    (bytes (joinLines (lines.map commentLine)))[offset +
          hashesBefore lines point]? =
        (bytes (joinLines lines))[offset]? ∨
      (bytes (joinLines lines))[offset]? = some 35 ∧
        (bytes (joinLines (lines.map commentLine)))[offset +
          hashesBefore lines point]? = some 47 := by
  induction hAt with
  | @first line lines offset _ hOffset =>
      rw [List.map_cons, bytes_joinLines, bytes_joinLines,
        hashesBefore_first]
      exact getElem?_commentLine lines hOffset
  | @later line lines offset row column _ hRest ih =>
      have hMore := hRest.ne_nil
      rw [List.map_cons, bytes_joinLines, bytes_joinLines, moved_later,
        bytesBehind_of_ne_nil hMore,
        bytesBehind_of_ne_nil (mt List.map_eq_nil_iff.mp hMore),
        getElem?_behind, getElem?_behind]
      exact ih

end At

/- Every offset is in some line. -/
theorem exists_at
    (hFeeds : ∀ line ∈ lines, '\n' ∉ line)
    (hSome : lines ≠ [])
    (hOffset : offset ≤ (bytes (joinLines lines)).length) :
    ∃ point, At lines offset point := by
  induction lines generalizing offset with
  | nil => exact absurd rfl hSome
  | cons line lines ih =>
      have hFeed := hFeeds line List.mem_cons_self
      rw [bytes_joinLines, List.length_append] at hOffset
      rcases Nat.lt_or_ge (bytes line).length offset with hLater | hFirst
      · have hMore : lines ≠ [] := by
          rintro rfl
          exact absurd hOffset (Nat.not_le.mpr hLater)
        obtain ⟨rest, rfl⟩ := Nat.exists_eq_add_of_le hLater
        rw [bytesBehind_of_ne_nil hMore, List.length_cons] at hOffset
        obtain ⟨⟨row, column⟩, hAt⟩ :=
          ih (fun other hMem => hFeeds other (List.mem_cons_of_mem _ hMem))
            hMore (show rest ≤ _ by omega)
        exact ⟨⟨row + 1, column⟩, .later hFeed hAt⟩
      · exact ⟨⟨0, offset⟩, .first hFeed hFirst⟩

------------------------------------------------------------
-- Prepared Texts
------------------------------------------------------------

theorem at_pointAt
    (hOffset : offset ≤ (bytes text).length) :
    At (splitLines text) offset (pointAt text offset) := by
  rw [← joinLines_splitLines text] at hOffset
  obtain ⟨point, hAt⟩ :=
    exists_at (fun _ => feed_not_mem_line) (splitLines_ne_nil text) hOffset
  have hPoint := hAt.pointAt_eq
  rw [joinLines_splitLines] at hPoint
  rw [hPoint]
  exact hAt

theorem bytes_wrap
    (text : List Char) :
    bytes (wrap text) = 40 :: (bytes (commentHashes text) ++ [10, 41]) := by
  unfold wrap
  rw [bytes_append]
  rfl

/- The parenthesis moves the bytes of the first row. -/
theorem pointAt_wrap
    (hOffset : offset ≤ (bytes (commentHashes text)).length) :
    pointAt (wrap text) (1 + offset) =
      ⟨(pointAt (commentHashes text) offset).row,
        (pointAt (commentHashes text) offset).column +
          if (pointAt (commentHashes text) offset).row = 0 then 1 else 0⟩ := by
  unfold pointAt
  rw [bytes_wrap, Nat.add_comm 1, List.take_succ_cons,
    List.take_append_of_le_length hOffset, Point.behind_cons (by decide)]

/- Where a byte stands in the prepared text, it has its own position. -/
theorem position_preparedOffset
    (placement : Placement)
    (hOffset : offset ≤ (bytes text).length)
    (hPast : isPastHash (splitLines text) (pointAt text offset) = false) :
    placement.position (pointAt (wrap text) (preparedOffset text offset)) =
      { line := Placement.word (placement.line + (pointAt text offset).row)
        column :=
          if (pointAt text offset).row = 0 then
            Placement.word ((pointAt text offset).column + placement.column)
          else (pointAt text offset).column } := by
  have hAt := (at_pointAt hOffset).commented hPast
  have hPoint := hAt.pointAt_eq
  have hLength := hAt.le_length
  change _ ≤ (bytes (commentHashes text)).length at hLength
  change pointAt (commentHashes text) _ = _ at hPoint
  unfold preparedOffset Placement.position
  rw [pointAt_wrap hLength, hPoint]
  dsimp only
  congr 1
  split
  · congr 1
  · rfl

theorem preparedOffset_lt
    {later : Nat}
    (hLess : offset < later)
    (hLater : later ≤ (bytes text).length) :
    preparedOffset text offset < preparedOffset text later := by
  have hHashes :=
    (at_pointAt (hLess.le.trans hLater)).hashesBefore_le
      (at_pointAt hLater) hLess
  unfold preparedOffset
  omega

/- What stands there is the byte itself, or a slash (47) for `#` (35). -/
theorem getElem?_preparedOffset
    (hOffset : offset < (bytes text).length) :
    (bytes (wrap text))[preparedOffset text offset]? =
        (bytes text)[offset]? ∨
      (bytes text)[offset]? = some 35 ∧
        (bytes (wrap text))[preparedOffset text offset]? = some 47 := by
  have hCommented := (at_pointAt hOffset.le).getElem?_commented
  rw [joinLines_splitLines] at hCommented
  change (bytes (commentHashes text))[_]? = _ ∨
    _ ∧ (bytes (commentHashes text))[_]? = _ at hCommented
  unfold preparedOffset
  generalize offset + hashesBefore (splitLines text) (pointAt text offset) =
    moved at *
  have hWrap : ∀ byte, (bytes (commentHashes text))[moved]? = some byte →
      (bytes (wrap text))[1 + moved]? = some byte := by
    intro byte hByte
    obtain ⟨hWithin, -⟩ := List.getElem?_eq_some_iff.mp hByte
    rw [bytes_wrap, Nat.add_comm 1, List.getElem?_cons_succ,
      List.getElem?_append_left hWithin, hByte]
  rw [List.getElem?_eq_getElem hOffset] at hCommented ⊢
  exact hCommented.imp (hWrap _) fun hSlash => ⟨hSlash.1, hWrap _ hSlash.2⟩

/-
  Every byte of a text up to the `#` on its line has, by its place in the
  prepared text, the position that it has in the text: the line feeds in
  front of it count from the first line, and the bytes since the last of
  them from the first column, which only the first line shares; sums are
  words, and a sum that fits in one is itself. Its place there is the
  place of the same byte, and the reader counts as this does. Making
  comments twice is making them once; it keeps the lines that do not
  start with `#`, and whether the text is blank.
-/
theorem positions_refer_to_text
    (placement : Placement)
    (text : List Char) :
    (∀ offset ≤ (bytes text).length,
      isPastHash (splitLines text) (pointAt text offset) = false →
        placement.position
            (pointAt (wrap text) (preparedOffset text offset)) =
          { line :=
              Placement.word (placement.line + (pointAt text offset).row)
            column :=
              if (pointAt text offset).row = 0 then
                Placement.word
                  ((pointAt text offset).column + placement.column)
              else (pointAt text offset).column }) ∧
    (∀ n < Text.wordLimit, Placement.word n = n) ∧
    (∀ offset < (bytes text).length,
      (bytes (wrap text))[preparedOffset text offset]? =
          (bytes text)[offset]? ∨
        (bytes text)[offset]? = some 35 ∧
          (bytes (wrap text))[preparedOffset text offset]? = some 47) ∧
    (∀ offset later, offset < later → later ≤ (bytes text).length →
      preparedOffset text offset < preparedOffset text later) ∧
    (∀ front rest, wrap text = front ++ rest →
      Point.after {} front = pointAt (wrap text) (bytes front).length) ∧
    commentHashes (commentHashes text) = commentHashes text ∧
    (splitLines (commentHashes text)).length = (splitLines text).length ∧
    (∀ (row : Nat) (line : List Char),
      (splitLines text)[row]? = some line →
      (isHashLine line = false →
        (splitLines (commentHashes text))[row]? = some line) ∧
      (isHashLine line = true →
        ∃ rest, line = indent line ++ '#' :: rest ∧
          (splitLines (commentHashes text))[row]? =
            some (indent line ++ '/' :: '/' :: rest))) ∧
    isBlank (commentHashes text) = isBlank text := by
  refine ⟨?_, ?_, ?_, ?_, ?_, commentHashes_commentHashes text, ?_, ?_,
    isBlank_commentHashes text⟩
  · intro offset hOffset hPast
    exact position_preparedOffset placement hOffset hPast
  · intro n hWord
    exact Nat.mod_eq_of_lt hWord
  · intro offset hOffset
    exact getElem?_preparedOffset hOffset
  · intro offset later hLess hLater
    exact preparedOffset_lt hLess hLater
  · intro front rest hFront
    rw [pointAt, hFront, bytes_append, List.take_left]
    exact Point.after_behind [] front
  · rw [splitLines_commentHashes, List.length_map]
  · intro row line hLine
    exact getElem?_commentHashes hLine

/- Text of several bytes, a carriage return and indentation by blanks. -/
theorem positions_refer_to_text_mixed :
    let text := "é\r\n\u00a0# ü\n  x".toList
    let placement : Placement := { line := 5, column := 7 }
    isPastHash (splitLines text) (pointAt text 13) = false ∧
      placement.position (pointAt (wrap text) 15) =
        { line := 7, column := 2 } ∧
      placement.position (pointAt (wrap text) 3) =
        { line := 5, column := 9 } := by
  intro text placement
  have hPast : isPastHash (splitLines text) (pointAt text 13) = false := by
    decide
  have hPositions := (positions_refer_to_text placement text).1
  exact ⟨hPast, hPositions 13 (by decide) hPast,
    hPositions 2 (by decide) (by decide)⟩

end Source

end SchemaLang
