-- SUMMARY: Which table, rows and column are emphasised, and what is marked for it.
import Storyboard.Text.CodePoint

/-!
# Highlights

A highlight names a table by its id and may name rows and a column of it. Rows alone
mark whole rows, a column alone marks a whole column with its header, and both
together mark the cells where they meet.
-/

namespace Storyboard

/-- An emphasis on rows, a column or cells of a table; all by their ids. -/
structure Highlight where
  table : CodePoints
  rows : Option (List CodePoints)
  column : Option CodePoints
deriving DecidableEq, Repr

namespace Highlight

/-- The highlight that marks nothing. -/
def empty : Highlight where
  table := []
  rows := none
  column := none

/-- Whether the highlight is one of no table. -/
def isEmpty (h : Highlight) : Bool :=
  h.table.isEmpty

/-- Whether the highlight names at least one row. -/
def namesRows (h : Highlight) : Bool :=
  match h.rows with
  | some (_ :: _) => true
  | _ => false

/-- Whether the highlight names the row. -/
def namesRow (h : Highlight) (row : CodePoints) : Bool :=
  (h.rows.getD []).contains row

/-- Whether the highlight names a column: the empty id is none. -/
def namesColumn (h : Highlight) : Bool :=
  !(h.column.getD []).isEmpty

/-- Whether the header of a column is marked: the highlight is on this column and names no rows. -/
def marksHeader (h : Highlight) (table : CodePoints) (column : Option CodePoints) : Bool :=
  h.table == table && h.column == column && !h.namesRows

/-- Whether a whole row is marked: the highlight names this row and no column. -/
def marksRow (h : Highlight) (table row : CodePoints) : Bool :=
  h.table == table && h.namesRow row && !h.namesColumn

/-- Whether a cell is marked by itself: the highlight is on its column and names its row or no
    row at all. -/
def marksCell (h : Highlight) (table : CodePoints) (column : Option CodePoints)
    (row : CodePoints) : Bool :=
  h.table == table && h.column == column && (h.namesRow row || !h.namesRows)

theorem namesRow_eq_false_of_not_namesRows {h : Highlight} (hn : h.namesRows = false)
    (row : CodePoints) : h.namesRow row = false := by
  obtain ⟨_, rows, _⟩ := h
  match rows with
  | none => rfl
  | some [] => rfl
  | some (_ :: _) => simp [namesRows] at hn

@[simp]
theorem isEmpty_empty : empty.isEmpty = true := rfl

end Highlight

end Storyboard
