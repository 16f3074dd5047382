-- SUMMARY: Actions: what a command comes down to once its names are known.
import Storyboard.Highlight
import Storyboard.Text.Quoted

/-!
# Actions

An action is a step of an animation: a highlight, which changes nothing, or a new
column or row of a table. `Action.summary` spells an action out on one line.
-/

namespace Storyboard

/-- One step of an animation. Tables, rows and columns that exist are named by their ids. -/
inductive Action where
  /-- Emphasises rows, a column or cells. -/
  | highlight (h : Highlight)
  /-- Appends a column, with values at some row positions, counted from 0. -/
  | addColumn (table name : CodePoints) (seeds : Option (List (Int × CodePoints)))
  /-- Appends a row, with one value for each column in order. -/
  | addRow (table : CodePoints) (values : List CodePoints)
deriving DecidableEq, Repr

namespace Action

/-- The name of the kind of an action. -/
def kind : Action → String
  | highlight _ => "Highlight"
  | addColumn .. => "AddColumn"
  | addRow .. => "AddRow"

/-- Parts between round brackets; a single part is followed by a comma. -/
def bracketed : List String → String
  | [] => "()"
  | [part] => "(" ++ part ++ ",)"
  | parts => "(" ++ String.intercalate ", " parts ++ ")"

/-- A value spelled out, or the word for none. -/
def orNone (spell : α → String) : Option α → String
  | none => "None"
  | some a => spell a

/-- The action on one line. -/
def summary : Action → String
  | highlight h =>
    "Highlight(table_id=" ++ Text.quoted h.table ++ ", row_ids="
      ++ orNone (fun rows => bracketed (rows.map Text.quoted)) h.rows ++ ", column_id="
      ++ orNone Text.quoted h.column ++ ")"
  | addColumn table name seeds =>
    let seed := fun (position, value) =>
      "(" ++ toString position ++ ", " ++ Text.quoted value ++ ")"
    "AddColumn(table_id=" ++ Text.quoted table ++ ", column_name=" ++ Text.quoted name
      ++ ", cell_values=" ++ orNone (fun seeds => bracketed (seeds.map seed)) seeds ++ ")"
  | addRow table values =>
    "AddRow(table_id=" ++ Text.quoted table ++ ", cell_values="
      ++ bracketed (values.map Text.quoted) ++ ")"

end Action

end Storyboard
