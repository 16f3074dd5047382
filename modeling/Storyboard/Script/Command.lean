-- SUMMARY: Commands as they are written: with names, and rows counted from 1.

/-!
# Commands

A command names its table and says what to do there, in the words of the script:
columns by name, rows by number. Whether there are such tables, columns and rows is
a question for later.
-/

namespace Storyboard.Script

/-- The value for one row of a new column. -/
structure CellSeed where
  row : Int
  value : String
deriving DecidableEq, Repr

/-- One value of a new row, for the column it names or else for the next column in order. -/
structure RowEntry where
  value : String
  column : Option String
deriving DecidableEq, Repr

/-- What a command asks for. -/
inductive Request where
  /-- `highlight … row 1,2` -/
  | highlightRows (rows : List Int)
  /-- `highlight … column 'c'`, with `row 1` a single cell -/
  | highlightColumn (column : String) (row : Option Int)
  /-- `add … column 'c'`, with `cells […]` some values -/
  | addColumn (column : String) (seeds : Option (List CellSeed))
  /-- `add … row`, with `[…]` some values -/
  | addRow (entries : List RowEntry)
deriving DecidableEq, Repr

/-- A command: a request on the table of a name. -/
structure Command where
  table : String
  request : Request
deriving DecidableEq, Repr

end Storyboard.Script
