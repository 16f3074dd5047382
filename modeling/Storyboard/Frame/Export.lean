-- SUMMARY: Frames in JSON.
import Storyboard.Frame
import Storyboard.Table.Collection

/-!
# Exported frames

Frames are exported with a delay between them, which is passed on as it is given.
-/

namespace Storyboard

/-- A text or null. -/
def Json.Value.ofOption (toJson : α → Json.Value) : Option α → Json.Value
  | none => .null
  | some a => toJson a

/-- A delay between frames: a number of milliseconds, or blank, which is passed on as an empty
    list. -/
inductive Delay where
  | milliseconds (n : Int)
  | blank
deriving DecidableEq, Repr

/-- A delay as JSON. -/
def Delay.toJson : Delay → Json.Value
  | milliseconds n => .integer n
  | blank => .array []

/-- A delay as text. -/
def Delay.text (d : Delay) : String :=
  d.toJson.spelled

/-- A highlight as JSON. -/
def Highlight.toJson (h : Highlight) : Json.Value :=
  .object
    [("tableId", .string h.table),
     ("rowIds", .ofOption (fun rows => .array (rows.map .string)) h.rows),
     ("columnId", .ofOption .string h.column)]

/-- A frame as JSON. -/
def Frame.toJson (frame : Frame) : Json.Value :=
  .object
    [("tables", Tables.toJson frame.tables), ("highlight", frame.highlight.toJson)]

/-- Frames and the delay between them as JSON. -/
def Frame.exportJson (frames : List Frame) (delay : Option Delay) : Json.Value :=
  .object
    [("frameDelay", .ofOption Delay.toJson delay), ("frames", .array (frames.map Frame.toJson))]

end Storyboard
