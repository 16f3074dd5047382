-- SUMMARY: Table collections in JSON: reading them with all checks, and writing them.
import Storyboard.Json.Reader
import Storyboard.Json.Writer
import Storyboard.Table

/-!
# Table collections

A collection is an array of at most three tables with distinct names. Each table
has an id and a name, and columns with distinct names. Ids, names and cells are
texts; any other value is taken by the text that stands for it (`Json.Value.text`),
and a cell that is null is empty.
-/

namespace Storyboard

/-! ## Errors -/

/-- Why a JSON value is no table or no collection. -/
inductive ShapeError where
  | notArray
  | notObject (kind : String)
  | missing (key : String)
  | notArrays (table : CodePoints)
  | badColumn (table : CodePoints)
  | duplicateColumn (column table : CodePoints)
  | badRow (table : CodePoints)
  | badCells (row table : CodePoints)
  | tooMany (count : Nat)
  | duplicateTable (name : CodePoints)
deriving DecidableEq, Repr

/-- The greatest number of tables in a collection. -/
def maxTables : Nat := 3

/-- The wording of an error. -/
def ShapeError.message : ShapeError → CodePoints
  | notArray => "Table collection must be a JSON array"
  | notObject kind => "Table must be an object, got " ++ kind
  | missing key => "Table is missing '" ++ key ++ "'"
  | notArrays table => "Table '" ++ table ++ "' needs 'columns' and 'rows' arrays"
  | badColumn table => "Column in table '" ++ table ++ "' needs 'id' and 'name'"
  | duplicateColumn column table =>
    "Duplicate column '" ++ column ++ "' in table '" ++ table ++ "'"
  | badRow table => "Row in table '" ++ table ++ "' must be an object with an 'id'"
  | badCells row table =>
    "Cells of row '" ++ row ++ "' in table '" ++ table ++ "' must be an object"
  | tooMany count =>
    "At most " ++ toString maxTables ++ " tables are allowed, got " ++ toString count
  | duplicateTable name => "Duplicate table name '" ++ name ++ "'"

/-- Why a text is no collection. -/
inductive LoadError where
  | json (e : Json.ReadError)
  | shape (e : ShapeError)
deriving DecidableEq, Repr

/-- The wording of an error. -/
def LoadError.message : LoadError → CodePoints
  | json e => e.message
  | shape e => e.message

/-! ## From JSON -/

/-- The text of a cell. -/
def Row.cellText : Json.Value → CodePoints
  | .null => []
  | v => v.text

/-- The columns in an array, `seen` being the names that have come before. -/
def Table.columnsOfJson (table : CodePoints) (seen : List CodePoints) :
    List Json.Value → Except ShapeError (List Column)
  | [] => .ok []
  | .object members :: rest =>
    match Json.Value.member? "id" members, Json.Value.member? "name" members with
    | some id, some name =>
      if name.text ∈ seen then .error (.duplicateColumn name.text table)
      else do
        let columns ← columnsOfJson table (name.text :: seen) rest
        .ok ({ id := id.text, name := name.text } :: columns)
    | _, _ => .error (.badColumn table)
  | _ :: _ => .error (.badColumn table)

/-- A row. -/
def Row.ofJson (table : CodePoints) : Json.Value → Except ShapeError Row
  | .object members =>
    match Json.Value.member? "id" members with
    | none => .error (.badRow table)
    | some id =>
      match (Json.Value.member? "cells" members).getD (.object []) with
      | .object cells =>
        .ok { id := id.text, cells := cells.map fun (key, value) => (key, cellText value) }
      | _ => .error (.badCells id.text table)
  | _ => .error (.badRow table)

/-- A table. -/
def Table.ofJson : Json.Value → Except ShapeError Table
  | .object members =>
    match Json.Value.member? "id" members, Json.Value.member? "name" members with
    | none, _ => .error (.missing "id")
    | _, none => .error (.missing "name")
    | some id, some name =>
      match (Json.Value.member? "columns" members).getD (.array []),
          (Json.Value.member? "rows" members).getD (.array []) with
      | .array columns, .array rows => do
        let columns ← columnsOfJson name.text [] columns
        let rows ← rows.mapM (Row.ofJson name.text)
        .ok { id := id.text, name := name.text, columns, rows }
      | _, _ => .error (.notArrays name.text)
  | v => .error (.notObject v.kind)

namespace Tables

/-- Accepts at most three tables with distinct names. -/
def check (tables : List Table) : Except ShapeError Unit :=
  if maxTables < tables.length then .error (.tooMany tables.length)
  else
    let names := tables.map (·.name)
    match names.find? fun name => 1 < names.count name with
    | some name => .error (.duplicateTable name)
    | none => .ok ()

/-- A collection from a JSON value. -/
def ofJson : Json.Value → Except ShapeError (List Table)
  | .array items => do
    let tables ← items.mapM Table.ofJson
    check tables
    .ok tables
  | _ => .error .notArray

/-- A collection from the text of a JSON value. -/
def load (text : List Char) : Except LoadError (List Table) :=
  match Json.Value.read text with
  | .error e => .error (.json e)
  | .ok value => (ofJson value).mapError .shape

end Tables

/-! ## To JSON -/

/-- A column as JSON. -/
def Column.toJson (column : Column) : Json.Value :=
  .object [("id", .string column.id), ("name", .string column.name)]

/-- A row as JSON. -/
def Row.toJson (row : Row) : Json.Value :=
  .object
    [("id", .string row.id),
     ("cells", .object (row.cells.map fun (key, value) => (key, .string value)))]

/-- A table as JSON. -/
def Table.toJson (table : Table) : Json.Value :=
  .object
    [("id", .string table.id), ("name", .string table.name),
     ("columns", .array (table.columns.map Column.toJson)),
     ("rows", .array (table.rows.map Row.toJson))]

/-- A collection as JSON. -/
def Tables.toJson (tables : List Table) : Json.Value :=
  .array (tables.map Table.toJson)

/-- The text of a collection. -/
def Tables.save (indent : Option Nat) (tables : List Table) : String :=
  (toJson tables).write indent

end Storyboard
