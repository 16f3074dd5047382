-- SUMMARY: Frames: replaying actions over tables, one frame for each action.
import Storyboard.Action
import Storyboard.Log
import Storyboard.Table

/-!
# Frames

A frame is a snapshot of the tables with a highlight over it. Replaying starts from
the tables as they are with nothing highlighted; each action then makes one frame.
A new column or row takes its id from a supply, the ids being used in order, and an
action on a table that is not there changes nothing and takes none.
-/

namespace Storyboard

/-- A snapshot of the tables and what is highlighted in it. -/
structure Frame where
  tables : List Table
  highlight : Highlight
deriving DecidableEq, Repr

/-! ## New columns and rows -/

namespace Table

/-- The table with a new column at the end. Row positions without a value get the empty text; of
    two values for one position the later counts. -/
def appendColumn (table : Table) (id name : CodePoints) (seeds : Option (List (Int × CodePoints))) :
    Table :=
  let seeds : OrderedMap Int CodePoints := OrderedMap.ofList (seeds.getD [])
  { table with
    columns := table.columns ++ [⟨id, name⟩]
    rows := table.rows.zipIdx.map fun (row, position) =>
      { row with cells := row.cells.insert id ((seeds.get? (position : Int)).getD []) } }

/-- The table with a new row at the end, its values laid out under the columns. -/
def appendRow (table : Table) (id : CodePoints) (values : List CodePoints) : Table :=
  { table with rows := table.rows ++ [⟨id, cellsUnder table.columns values⟩] }

@[simp]
theorem appendColumn_columns (table : Table) (id name : CodePoints)
    (seeds : Option (List (Int × CodePoints))) :
    (table.appendColumn id name seeds).columns = table.columns ++ [⟨id, name⟩] := rfl

@[simp]
theorem length_appendColumn_rows (table : Table) (id name : CodePoints)
    (seeds : Option (List (Int × CodePoints))) :
    (table.appendColumn id name seeds).rows.length = table.rows.length := by
  simp [appendColumn]

@[simp]
theorem appendRow_columns (table : Table) (id : CodePoints) (values : List CodePoints) :
    (table.appendRow id values).columns = table.columns := rfl

@[simp]
theorem appendRow_rows (table : Table) (id : CodePoints) (values : List CodePoints) :
    (table.appendRow id values).rows =
      table.rows ++ [⟨id, cellsUnder table.columns values⟩] := rfl

end Table

/-! ## One action -/

/-- What one action leads to: the next frame, the number of the next id, and whether its table was
    missing. -/
structure Step where
  frame : Frame
  next : Nat
  missing : Bool

/-- Changes the first table with an id by means of the next id of a supply. The frame highlights
    what is new; without such a table nothing changes. -/
def Frame.change (ids : IdSupply) (next : Nat) (tables : List Table) (table : CodePoints)
    (change : Table → CodePoints → Table) (highlight : CodePoints → Highlight) : Step :=
  match Tables.indexOf? tables table with
  | none => { frame := ⟨tables, .empty⟩, next, missing := true }
  | some i =>
    { frame := ⟨tables.modify i (change · (ids next)), highlight (ids next)⟩
      next := next + 1
      missing := false }

/-- Applies one action to a snapshot. -/
def Action.apply (ids : IdSupply) (next : Nat) (tables : List Table) : Action → Step
  | highlight h => { frame := ⟨tables, h⟩, next, missing := false }
  | addColumn table name seeds =>
    Frame.change ids next tables table (fun t id => t.appendColumn id name seeds)
      fun id => { table, rows := none, column := some id }
  | addRow table values =>
    Frame.change ids next tables table (fun t id => t.appendRow id values)
      fun id => { table, rows := some [id], column := none }

/-- The id of the table that an action is on. -/
def Action.table : Action → CodePoints
  | highlight h => h.table
  | addColumn table _ _ => table
  | addRow table _ => table

/-- What there is to say about the step of an action. -/
def Step.log (s : Step) (action : Action) : List LogLine :=
  if s.missing then
    [⟨.warning,
      "Table id " ++ Text.quoted action.table ++ " not found; " ++ action.kind ++ " skipped"⟩]
  else []

/-! ## All actions -/

namespace Frame

/-- The steps of actions one after the other. -/
def steps (ids : IdSupply) (next : Nat) (tables : List Table) : List Action → List Step
  | [] => []
  | action :: rest =>
    let step := action.apply ids next tables
    step :: steps ids step.next step.frame.tables rest

/-- The frames of an animation: the tables as they are, then one frame for each action. -/
def sequence (ids : IdSupply) (tables : List Table) (actions : List Action) : List Frame :=
  ⟨tables, .empty⟩ :: (steps ids 0 tables actions).map (·.frame)

/-- What building the frames has to say. -/
def sequenceLog (ids : IdSupply) (tables : List Table) (actions : List Action) : List LogLine :=
  (((steps ids 0 tables actions).zip actions).flatMap fun (step, action) => step.log action)
    ++ [⟨.debug,
        "Built " ++ toString (actions.length + 1) ++ " frames from " ++ toString actions.length
          ++ " actions"⟩]

@[simp]
theorem length_steps (ids : IdSupply) (next : Nat) (tables : List Table) (actions : List Action) :
    (steps ids next tables actions).length = actions.length := by
  induction actions generalizing next tables with
  | nil => rfl
  | cons action rest ih => simp [steps, ih]

@[simp]
theorem length_sequence (ids : IdSupply) (tables : List Table) (actions : List Action) :
    (sequence ids tables actions).length = actions.length + 1 := by
  simp [sequence]

end Frame

end Storyboard
