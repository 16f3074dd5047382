-- SUMMARY: Looking up what a command names, which makes it an action.
import Storyboard.Action
import Storyboard.Script.Problem
import Storyboard.Table

/-!
# Resolving

`Command.resolve` looks up the table, the columns and the rows that a command names
and gives the action that it comes down to, with notes on what is left out; or the
cause for which it is rejected. `interpret` takes the text of a command all the way.
-/

namespace Storyboard.Script

/-- A command that is kept: its action and the notes on it. -/
structure Resolved where
  action : Action
  cautions : List Caution
deriving DecidableEq, Repr

/-! ## Requests -/

/-- A highlight of the rows with the numbers; numbers without a row are passed over. -/
def resolveRows (table : Table) (rows : List Int) : Resolved where
  action := .highlight
    { table := table.id
      rows := some ((rows.filterMap fun n => table.rowAt? (n - 1)).map (·.id))
      column := none }
  cautions := []

/-- A highlight of a column, or of the cell at a row number if there is such a row. -/
def resolveColumn (table : Table) (name : String) (row : Option Int) :
    Except Rejection Resolved :=
  match table.column? name with
  | none => .error (.unknownColumn name table.name)
  | some column =>
    .ok
      { action := .highlight
          { table := table.id
            rows := (row.bind fun n => table.rowAt? (n - 1)).map fun r => [r.id]
            column := some column.id }
        cautions := [] }

/-- Puts a value at a position into a list that ascends by position, in place of a value there. -/
def placeSeed (position : Int) (value : CodePoints) :
    List (Int × CodePoints) → List (Int × CodePoints)
  | [] => [(position, value)]
  | (p, v) :: rest =>
    if position < p then (position, value) :: (p, v) :: rest
    else if position = p then (position, value) :: rest
    else (p, v) :: placeSeed position value rest

/-- The values for rows that the table has, by ascending position; of two for one row the later. -/
def seedsWithin (table : Table) (seeds : List CellSeed) : List (Int × CodePoints) :=
  (seeds.filter fun s => (table.rowAt? (s.row - 1)).isSome).foldl
    (fun placed s => placeSeed (s.row - 1) s.value placed) []

/-- The notes on values for rows that the table does not have. -/
def seedsBeyond (table : Table) (seeds : List CellSeed) : List Caution :=
  (seeds.filter fun s => (table.rowAt? (s.row - 1)).isNone).map fun s =>
    .rowOutOfBounds s.row table.name table.rows.length

/-- A new column, whose name the table must not have yet. -/
def resolveAddColumn (table : Table) (name : String) (seeds : Option (List CellSeed)) :
    Except Rejection Resolved :=
  if (table.column? name).isSome then .error (.columnExists name table.name)
  else
    .ok
      { action := .addColumn table.id name (seeds.map (seedsWithin table))
        cautions := (seeds.map (seedsBeyond table)).getD [] }

/-- The values under the ids of the columns that they name; of two for one column the later. -/
def namedValues (table : Table) :
    List (String × String) → OrderedMap CodePoints CodePoints →
      Except Rejection (OrderedMap CodePoints CodePoints)
  | [], values => .ok values
  | (name, value) :: rest, values =>
    match table.column? name with
    | none => .error (.unknownColumn name table.name)
    | some column => namedValues table rest (values.insert column.id value)

/-- A new row, from values that all name their columns or that all go by order. -/
def resolveAddRow (table : Table) (entries : List RowEntry) : Except Rejection Resolved :=
  let named := entries.filterMap fun e => e.column.map (·, e.value)
  let width := table.columns.length
  if named.isEmpty then
    let values := entries.map fun e => CodePoints.ofString e.value
    .ok
      { action := .addRow table.id
          (values.take width ++ List.replicate (width - values.length) [])
        cautions :=
          if width < values.length then [.tooManyValues table.name width values.length] else [] }
  else if named.length ≠ entries.length then .error .mixedEntries
  else do
    let values ← namedValues table named []
    .ok
      { action := .addRow table.id (table.columns.map fun c => (values.get? c.id).getD [])
        cautions := [] }

/-- The action of a request on a table. -/
def Request.resolve (table : Table) : Request → Except Rejection Resolved
  | highlightRows rows => .ok (resolveRows table rows)
  | highlightColumn column row => resolveColumn table column row
  | addColumn column seeds => resolveAddColumn table column seeds
  | addRow entries => resolveAddRow table entries

/-! ## Commands -/

/-- The first table with the name that a command gives. -/
def findTable (tables : List Table) (name : String) : Except Rejection Table :=
  match Tables.named? tables name with
  | none => .error (.unknownTable name)
  | some table => .ok table

/-- The action of a command on the tables of a collection. -/
def Command.resolve (tables : List Table) (c : Command) : Except Rejection Resolved := do
  let table ← findTable tables c.table
  c.request.resolve table

/-- What becomes of the text of a command. -/
inductive Outcome where
  /-- It is rejected, with the position of the fault where there is one. -/
  | rejected (cause : Rejection) (position : Option Nat)
  | kept (r : Resolved)
deriving DecidableEq, Repr

/-- What becomes of the text of a command on the tables of a collection; an error if it holds a
    numeral that is too long. -/
def interpret (tables : List Table) (text : List Char) :
    Except Text.Numeral.TooLong Outcome :=
  match parse text with
  | .error (.numeral e) => .error e
  | .error (.fault f) => do
    let position ← faultPosition f
    .ok (.rejected (.malformed text f) position)
  | .ok command =>
    match command.resolve tables with
    | .error cause => .ok (.rejected cause none)
    | .ok r => .ok (.kept r)

end Storyboard.Script
