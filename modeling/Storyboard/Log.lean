-- SUMMARY: Log lines and the level from which on they are shown.
import Storyboard.Text.Print

/-!
# Log

What the parts of the program have to say beside their results, in order, as
lines with a level. A threshold keeps the lines of its own level and above
(`Log.shown`). They go to the error stream.
-/

namespace Storyboard

/-- How much a log line matters. -/
inductive LogLevel where
  | debug
  | info
  | warning
  | error
deriving DecidableEq, Repr

namespace LogLevel

/-- All levels, the least first. -/
def all : List LogLevel :=
  [debug, info, warning, error]

/-- The name by which a level is chosen and shown. -/
def name : LogLevel → String
  | debug => "DEBUG"
  | info => "INFO"
  | warning => "WARNING"
  | error => "ERROR"

/-- The place of a level among all of them. -/
def rank : LogLevel → Nat
  | debug => 0
  | info => 1
  | warning => 2
  | error => 3

/-- The level with the name. -/
def ofName? (name : String) : Option LogLevel :=
  all.find? (·.name == name)

theorem ofName?_name (l : LogLevel) : ofName? l.name = some l := by
  cases l <;> decide

end LogLevel

/-- One line of the log. -/
structure LogLine where
  level : LogLevel
  message : CodePoints
deriving DecidableEq, Repr

/-- The text of a log line. -/
def LogLine.text (l : LogLine) : CodePoints :=
  l.level.name ++ ": " ++ l.message

/-- The lines of a log that a threshold shows, each ended by a line feed. -/
def Log.shown (threshold : LogLevel) (log : List LogLine) : String :=
  String.join ((log.filter fun l => threshold.rank ≤ l.level.rank).map fun l =>
    Print.escaped l.text ++ "\n")

end Storyboard
