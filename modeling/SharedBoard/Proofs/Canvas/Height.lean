import Mathlib
import SharedBoard.Canvas

/-! How tall a text makes its post. A line takes the least number of rows that holds it, and at
least one. Two texts that are put together share at most one line, so that the result takes as many
rows as either of them, and at most as many as both.
-/

namespace SharedBoard.Canvas

-----------------------------------------------------------------------------------------
-- Lines
-----------------------------------------------------------------------------------------

/-- The lines of a text are the parts between its line feeds, by induction over the text. -/
theorem lines_eq_splitOn (text : List Char) : lines text = text.splitOn '\n' := by
  induction text with
  | nil => rfl
  | cons char rest ih =>
      rw [lines, List.splitOn_cons_eq_if_modifyHead, ih]
      by_cases feed : char = '\n'
      · simp [feed]
      · obtain ⟨line, others, split⟩ :=
          List.exists_cons_of_ne_nil (List.splitOn_ne_nil '\n' rest)
        simp [feed, split]

theorem lines_ne_nil (text : List Char) : lines text ≠ [] := by
  rw [lines_eq_splitOn]
  exact List.splitOn_ne_nil '\n' text

/-- Another character goes on with the first line, unless it is a line feed. -/
theorem lines_cons_of_ne {char : Char} {text line : List Char} {others : List (List Char)}
    (noFeed : char ≠ '\n') (split : lines text = line :: others)
    : lines (char :: text) = (char :: line) :: others := by
  rw [lines, if_neg noFeed, split]

theorem lines_feed (first second : List Char)
    : lines (first ++ '\n' :: second) = lines first ++ lines second := by
  simp only [lines_eq_splitOn, List.splitOn_append_cons_self]

/-- The last line of one text and the first line of the next become one line, by induction over the
first text.
-/
theorem exists_lines_append (first second : List Char)
    : ∃ before last next after,
        lines first = before ++ [last]
        ∧ lines second = next :: after
        ∧ lines (first ++ second) = before ++ (last ++ next) :: after := by
  induction first with
  | nil =>
      obtain ⟨next, after, split⟩ := List.exists_cons_of_ne_nil (lines_ne_nil second)
      exact ⟨[], [], next, after, rfl, split, split⟩
  | cons char rest ih =>
      obtain ⟨before, last, next, after, ofFirst, ofSecond, ofBoth⟩ := ih
      by_cases feed : char = '\n'
      · refine ⟨[] :: before, last, next, after, ?_, ofSecond, ?_⟩
        · rw [lines, if_pos feed, ofFirst, List.cons_append]
        · rw [List.cons_append, lines, if_pos feed, ofBoth, List.cons_append]
      · cases before with
        | nil =>
            exact ⟨[], char :: last, next, after, lines_cons_of_ne feed ofFirst, ofSecond,
              lines_cons_of_ne feed ofBoth⟩
        | cons line others =>
            exact ⟨(char :: line) :: others, last, next, after, lines_cons_of_ne feed ofFirst,
              ofSecond, lines_cons_of_ne feed ofBoth⟩

-----------------------------------------------------------------------------------------
-- Rows
-----------------------------------------------------------------------------------------

/-- A line fits into a number of rows exactly if it takes at most as many. -/
theorem rowsOfLine_le_iff {line : List Char} {count : Nat}
    : rowsOfLine line ≤ count ↔ 1 ≤ count ∧ line.length ≤ 34 * count := by
  simp only [rowsOfLine, charsPerRow]
  omega

/-- A line takes the least number of rows that holds it, and at least one. -/
theorem isLeast_rowsOfLine (line : List Char)
    : IsLeast {count | 1 ≤ count ∧ line.length ≤ 34 * count} (rowsOfLine line) :=
  ⟨rowsOfLine_le_iff.mp le_rfl, fun _ holds => rowsOfLine_le_iff.mpr holds⟩

theorem rowsOfLine_mono {line longer : List Char} (shorter : line.length ≤ longer.length)
    : rowsOfLine line ≤ rowsOfLine longer := by
  obtain ⟨positive, holds⟩ := rowsOfLine_le_iff.mp (le_refl (rowsOfLine longer))
  exact rowsOfLine_le_iff.mpr ⟨positive, shorter.trans holds⟩

/-- Two lines in one fit into the rows of both. -/
theorem rowsOfLine_append_le (left right : List Char)
    : rowsOfLine (left ++ right) ≤ rowsOfLine left + rowsOfLine right := by
  obtain ⟨leftPositive, leftHolds⟩ := rowsOfLine_le_iff.mp (le_refl (rowsOfLine left))
  obtain ⟨_, rightHolds⟩ := rowsOfLine_le_iff.mp (le_refl (rowsOfLine right))
  refine rowsOfLine_le_iff.mpr ⟨by omega, ?_⟩
  rw [List.length_append]
  omega

theorem rows_eq_sum (text : List Char) : rows text = ((lines text).map rowsOfLine).sum := by
  rw [List.sum_eq_foldr, List.foldr_map]
  rfl

theorem rows_feed (first second : List Char)
    : rows (first ++ '\n' :: second) = rows first + rows second := by
  simp only [rows_eq_sum, lines_feed, List.map_append, List.sum_append]

/-- A text takes as many rows as either part of it, and at most as many as both: only the line that
the two parts share is counted twice.
-/
theorem rows_append (first second : List Char)
    : rows first ≤ rows (first ++ second)
      ∧ rows second ≤ rows (first ++ second)
      ∧ rows (first ++ second) ≤ rows first + rows second := by
  obtain ⟨before, last, next, after, ofFirst, ofSecond, ofBoth⟩ := exists_lines_append first second
  have lastShorter : rowsOfLine last ≤ rowsOfLine (last ++ next) := rowsOfLine_mono (by simp)
  have nextShorter : rowsOfLine next ≤ rowsOfLine (last ++ next) := rowsOfLine_mono (by simp)
  have both := rowsOfLine_append_le last next
  simp only [rows_eq_sum, ofFirst, ofSecond, ofBoth, List.map_append, List.map_cons, List.map_nil,
    List.sum_append, List.sum_cons, List.sum_nil]
  omega

-----------------------------------------------------------------------------------------
-- Heights
-----------------------------------------------------------------------------------------

theorem toInt_max (left right : Int32) : (max left right).toInt = max left.toInt right.toInt := by
  change (if left ≤ right then right else left).toInt = _
  simp only [Int32.le_iff_toInt_le]
  split <;> omega

/-- The height of a text whose rows stay within 32 bits. -/
theorem toInt_contentHeight {content : String} (fits : 16 * rows content.toList + 61 ≤ 2147483647)
    : (contentHeight content).toInt = max 125 (16 * rows content.toList + 61) := by
  have largest : Rounding.greatest.toNat = 2147483647 := rfl
  have text : textHeight (rows content.toList) = 16 * rows content.toList := by
    simp only [textHeight, largest, rowHeight]
    rw [if_pos (by omega)]
    omega
  have height : (Int32.ofInt (textHeight (rows content.toList) + padding : Nat)).toInt
      = 16 * rows content.toList + 61 := by
    rw [text, padding, Int32.toInt_ofInt_of_le (by omega) (by omega)]
    push_cast
    rfl
  have least : postHeight.toInt = 125 := rfl
  rw [contentHeight, toInt_max, height, least, max_comm]
  push_cast
  rfl

/-- Text that is added to the end or the beginning of another one never makes a post shorter. Texts
with a line feed between them take the rows of both, and without one at most those. A post is as
high as its rows and what surrounds them, and at least 125; the lines are the parts between the line
feeds, and each takes the least number of rows of 34 characters that holds it, and at least one.
-/
theorem heights_grow_with_text
    : (∀ first second : String,
        16 * rows (first ++ second).toList + 61 ≤ 2147483647
        → contentHeight first ≤ contentHeight (first ++ second)
          ∧ contentHeight second ≤ contentHeight (first ++ second))
      ∧ (∀ first second : String,
          rows (first ++ "\n" ++ second).toList = rows first.toList + rows second.toList
          ∧ rows (first ++ second).toList ≤ rows first.toList + rows second.toList)
      ∧ (∀ content : String,
          16 * rows content.toList + 61 ≤ 2147483647
          → (contentHeight content).toInt = max 125 (16 * rows content.toList + 61))
      ∧ (∀ text, rows text = ((text.splitOn '\n').map rowsOfLine).sum)
      ∧ ∀ line, IsLeast {count | 1 ≤ count ∧ line.length ≤ 34 * count} (rowsOfLine line) := by
  refine ⟨fun first second fits => ?_, fun first second => ⟨?_, ?_⟩,
    fun _ => toInt_contentHeight, fun text => ?_, isLeast_rowsOfLine⟩
  · obtain ⟨fromFirst, fromSecond, _⟩ := rows_append first.toList second.toList
    rw [← String.toList_append] at fromFirst fromSecond
    rw [Int32.le_iff_toInt_le, Int32.le_iff_toInt_le, toInt_contentHeight fits,
      toInt_contentHeight (by omega), toInt_contentHeight (by omega)]
    omega
  · rw [String.toList_append, String.toList_append, List.append_assoc]
    exact rows_feed first.toList second.toList
  · rw [String.toList_append]
    exact (rows_append first.toList second.toList).2.2
  · rw [rows_eq_sum, lines_eq_splitOn]

/-- Two texts that fit into the least height each, the first in four lines, have to grow when they
share the fourth one, which then wraps.
-/
theorem heights_grow_with_text_sharedLine
    : let first := "\n\n\nApples, pears and cherries"
      let second := " for Sunday"
      16 * rows (first ++ second).toList + 61 ≤ 2147483647
      ∧ contentHeight first ≤ contentHeight (first ++ second)
      ∧ (contentHeight first).toInt = 125
      ∧ (contentHeight (first ++ second)).toInt = 141 := by
  intro first second
  have fits : 16 * rows (first ++ second).toList + 61 ≤ 2147483647 := by cbv
  have alone : 16 * rows first.toList + 61 ≤ 2147483647 := by cbv
  obtain ⟨grows, _, exact_, _⟩ := heights_grow_with_text
  refine ⟨fits, (grows first second fits).1, (exact_ first alone).trans ?_,
    (exact_ (first ++ second) fits).trans ?_⟩
  · cbv
  · cbv

end SharedBoard.Canvas
