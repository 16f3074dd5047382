-- SUMMARY: Tables with columns and rows, what is looked up in them, and supplies of new ids.
import Storyboard.OrderedMap
import Storyboard.Text.CodePoint

/-!
# Tables

A table has columns and rows in a fixed order. A row holds its cells under the ids
of the columns; a cell that is missing reads as the empty text. Names and ids are
looked up from first to last, so that the first match counts.
-/

namespace Storyboard

/-! ## Tables -/

/-- A column: its name is what scripts use, its id what cells use. -/
structure Column where
  id : CodePoints
  name : CodePoints
deriving DecidableEq, Repr

/-- A row with its cells under column ids. -/
structure Row where
  id : CodePoints
  cells : OrderedMap CodePoints CodePoints
deriving DecidableEq, Repr

/-- A table. -/
structure Table where
  id : CodePoints
  name : CodePoints
  columns : List Column
  rows : List Row
deriving DecidableEq, Repr

/-- The text of the cell under a column id, empty if there is no such cell. -/
def Row.cell (row : Row) (column : CodePoints) : CodePoints :=
  (row.cells.get? column).getD []

namespace Table

/-- The first column with the name. -/
def column? (table : Table) (name : CodePoints) : Option Column :=
  table.columns.find? (·.name == name)

/-- The row at a position, counted from 0. -/
def rowAt? (table : Table) (position : Int) : Option Row :=
  if 0 ≤ position then table.rows[position.toNat]? else none

/-- Values laid out under the columns in order; columns without a value get the empty text, values
    without a column are left out. -/
def cellsUnder (columns : List Column) (values : List CodePoints) :
    OrderedMap CodePoints CodePoints :=
  OrderedMap.ofList (columns.zipIdx.map fun (column, i) => (column.id, values.getD i []))

theorem column?_name {table : Table} {name : CodePoints} {c : Column}
    (h : table.column? name = some c) : c.name = name := by
  simpa using List.find?_some h

theorem column?_mem {table : Table} {name : CodePoints} {c : Column}
    (h : table.column? name = some c) : c ∈ table.columns :=
  List.mem_of_find?_eq_some h

theorem column?_eq_none {table : Table} {name : CodePoints} :
    table.column? name = none ↔ ∀ c ∈ table.columns, c.name ≠ name := by
  simp [column?]

theorem rowAt?_isSome {table : Table} {position : Int} :
    (table.rowAt? position).isSome ↔ 0 ≤ position ∧ position < table.rows.length := by
  simp only [rowAt?]
  split
  · rw [Option.isSome_iff_ne_none, ne_eq, List.getElem?_eq_none_iff]
    omega
  · simp only [Option.isSome_none, Bool.false_eq_true, false_iff]
    omega

end Table

/-! ## Collections -/

namespace Tables

/-- The first table with the name. -/
def named? (tables : List Table) (name : CodePoints) : Option Table :=
  tables.find? (·.name == name)

/-- The first table with the id. -/
def withId? (tables : List Table) (id : CodePoints) : Option Table :=
  tables.find? (·.id == id)

/-- The place of the first table with the id. -/
def indexOf? (tables : List Table) (id : CodePoints) : Option Nat :=
  tables.findIdx? (·.id == id)

/-- The first table with a name and its first column with another. -/
def column? (tables : List Table) (table column : CodePoints) : Option (Table × Column) := do
  let t ← named? tables table
  let c ← t.column? column
  some (t, c)

theorem named?_name {tables : List Table} {name : CodePoints} {t : Table}
    (h : named? tables name = some t) : t.name = name := by
  simpa using List.find?_some h

theorem named?_mem {tables : List Table} {name : CodePoints} {t : Table}
    (h : named? tables name = some t) : t ∈ tables :=
  List.mem_of_find?_eq_some h

theorem indexOf?_lt {tables : List Table} {id : CodePoints} {i : Nat}
    (h : indexOf? tables id = some i) : i < tables.length := by
  rw [indexOf?, List.findIdx?_eq_some_iff_getElem] at h
  exact h.1

end Tables

/-! ## New ids -/

/-- A supply of ids: the id of each number, numbers being used up from 0 on. -/
abbrev IdSupply := Nat → CodePoints

namespace IdSupply

/-- The supply `name-1`, `name-2`, … -/
def counting (name : String) : IdSupply :=
  fun n => .ofString (name ++ "-" ++ toString (n + 1))

/-- The number of ids that are 128 bits long. -/
def wide : Nat := Nat.pow 2 128

/-- Ids of 32 hexadecimal digits from a point of departure on, in large odd steps, so that none
    comes twice before all have come. -/
def wideFrom (start : Nat) : IdSupply := fun n =>
  let digits := Nat.toDigits 16 ((start + n * 0x9E3779B97F4A7C15F39CC0605CEDC835) % wide)
  .ofChars (List.replicate (32 - digits.length) '0' ++ digits)

end IdSupply

/-- A table from names and values, with ids from a supply: first those of the columns, then that of
    the table, then those of the rows. -/
def Table.build (ids : IdSupply) (name : CodePoints) (columns : List CodePoints)
    (rows : List (List CodePoints)) : Table :=
  let columns := columns.zipIdx.map fun (name, i) => { id := ids i, name : Column }
  { id := ids columns.length
    name
    columns
    rows := rows.zipIdx.map fun (values, i) =>
      { id := ids (columns.length + 1 + i), cells := cellsUnder columns values } }

end Storyboard
