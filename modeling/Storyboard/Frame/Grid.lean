-- SUMMARY: Tables and frames as text, in aligned columns.
import Storyboard.Frame
import Storyboard.Text.Blank

/-!
# Grids

A table is shown as a grid: its name, a header with the column names, a rule, and one
line for each row with its number. Long values are cut short. A highlighted header or
cell stands between asterisks, and a highlighted row has a mark in the margin. The
fields of a column are filled up to the width of the widest.
-/

namespace Storyboard

/-! ## Fields -/

namespace Grid

/-- The width to which values are cut. -/
def maxWidth : Int := 24

/-- A value cut to a width, the last three characters giving way to dots. -/
def shorten (width : Int) (value : CodePoints) : CodePoints :=
  if width < value.length then Text.upTo (width - 3) value ++ "..." else value

/-- A text between asterisks if it is marked. -/
def mark (marked : Bool) (text : CodePoints) : CodePoints :=
  if marked then "*" ++ text ++ "*" else text

/-- A text filled up with spaces to a width. -/
def pad (width : Nat) (text : CodePoints) : CodePoints :=
  text ++ List.replicate (width - text.length) (.char ' ')

theorem length_pad {width : Nat} {text : CodePoints} (h : text.length ≤ width) :
    (pad width text).length = width := by
  simp only [pad, List.length_append, List.length_replicate]
  omega

/-! ## Lines -/

/-- A line of the grid: its mark in the margin and its fields. -/
structure Line where
  margin : Char
  fields : List CodePoints
deriving DecidableEq, Repr

/-- What a value shows as. -/
def field (marked : Bool) (value : CodePoints) : CodePoints :=
  mark marked (shorten maxWidth value)

/-- The header: a number sign and the names of the columns. -/
def header (table : Table) (h : Highlight) : Line where
  margin := ' '
  fields := "#" :: table.columns.map fun c =>
    field (h.marksHeader table.id (some c.id)) c.name

/-- The line of a row: its number and its cells. -/
def rowLine (table : Table) (h : Highlight) (number : Nat) (row : Row) : Line where
  margin := if h.marksRow table.id row.id then '>' else ' '
  fields := toString number :: table.columns.map fun c =>
    field (h.marksRow table.id row.id || h.marksCell table.id (some c.id) row.id) (row.cell c.id)

/-- The lines of all rows, numbered from 1. -/
def body (table : Table) (h : Highlight) : List Line :=
  table.rows.zipIdx.map fun (row, i) => rowLine table h (i + 1) row

/-- The greater width at each place; places that only the second has are left out. -/
def widen (widths : List Nat) (fields : List CodePoints) : List Nat :=
  widths.zipIdx.map fun (width, i) => max width (fields.getD i []).length

/-- The width of each column of fields: that of its widest field. -/
def widths (head : Line) (lines : List Line) : List Nat :=
  lines.foldl (fun widths line => widen widths line.fields) (head.fields.map (·.length))

/-- What stands between two fields. -/
def fieldSeparator : CodePoints :=
  " | "

/-- A line with its fields filled up to the widths. -/
def Line.layOut (widths : List Nat) (line : Line) : CodePoints :=
  .char line.margin :: .char ' '
    :: List.intercalate fieldSeparator (List.zipWith pad widths line.fields)

end Grid

/-! ## Tables -/

/-- The lines of text that show a table under a highlight. -/
def Table.gridLines (table : Table) (h : Highlight) : List CodePoints :=
  let head := Grid.header table h
  let body := Grid.body table h
  let widths := Grid.widths head body
  let headLine := head.layOut widths
  let rule : CodePoints := "  " ++ List.replicate (headLine.length - 2) (CodePoint.char '-')
  let rows : List CodePoints :=
    if body.isEmpty then ["  (no rows)"]
    else body.map fun line => (line.layOut widths).stripRight
  table.name :: headLine.stripRight :: rule :: rows

/-- The text that shows a table under a highlight. -/
def Table.grid (table : Table) (h : Highlight) : CodePoints :=
  List.intercalate "\n" (table.gridLines h)

/-! ## Frames -/

/-- The title of a frame, `index` being counted from 0. -/
def Frame.title (index : Int) (total : Option Int) : String :=
  let rest :=
    match total with
    | none => ""
    | some n => "/" ++ toString n
  "== Frame " ++ toString (index + 1) ++ rest ++ " =="

/-- The text that shows a frame, with a title if it has an index. -/
def Frame.grid (frame : Frame) (index total : Option Int) : CodePoints :=
  let title : List CodePoints :=
    match index with
    | none => []
    | some i => [title i total]
  let tables : List CodePoints :=
    if frame.tables.isEmpty then ["(no tables)"]
    else frame.tables.map (·.grid frame.highlight)
  List.intercalate "\n\n" (title ++ tables)

end Storyboard
