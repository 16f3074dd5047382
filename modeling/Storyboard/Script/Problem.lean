-- SUMMARY: Why a command is rejected, what is noted about a command that is kept, and the wording of both.
import Storyboard.Script.Parser
import Storyboard.Text.CodePoint

/-!
# Problems with commands

A command is rejected for one cause (`Rejection`), or it is kept and may leave notes
on what of it could not be done (`Caution`). The place of a fault is read off its
wording (`faultPosition`): it is the first number that the wording calls a position.
-/

namespace Storyboard.Script

/-! ## Kinds -/

/-- The kinds of problems. -/
inductive ProblemKind where
  | tableNotFound
  | columnNotFound
  | columnExists
  | invalidCommand
  | rowOutOfBounds
  | tooManyValues
deriving DecidableEq, Repr

/-! ## Rejections -/

/-- The cause for which a command is rejected. -/
inductive Rejection where
  /-- The text is no command. -/
  | malformed (text : List Char) (fault : Fault)
  | unknownTable (name : String)
  | unknownColumn (column : String) (table : CodePoints)
  /-- A new column has the name of a column of the table. -/
  | columnExists (column : String) (table : CodePoints)
  /-- Some values of a new row name their column and some do not. -/
  | mixedEntries
  /-- An earlier command of the script adds a column of the name to the table. -/
  | columnAdded (column : CodePoints)
deriving DecidableEq, Repr

namespace Rejection

/-- The kind of problem that a cause is. -/
def kind : Rejection → ProblemKind
  | malformed .. => .invalidCommand
  | unknownTable _ => .tableNotFound
  | unknownColumn .. => .columnNotFound
  | columnExists .. => .columnExists
  | mixedEntries => .invalidCommand
  | columnAdded _ => .columnExists

/-- The wording of a cause. -/
def message : Rejection → CodePoints
  | malformed text fault =>
    "Invalid command: " ++ String.ofList (Text.strip text) ++ " (" ++ fault.message ++ ")"
  | unknownTable name => "Table '" ++ name ++ "' not found"
  | unknownColumn column table =>
    "Column '" ++ column ++ "' not found in table '" ++ table ++ "'"
  | columnExists column table =>
    "Column '" ++ column ++ "' already exists in table '" ++ table ++ "'"
  | mixedEntries => "Invalid command: cannot mix named and positional row values"
  | columnAdded column => "Column '" ++ column ++ "' is already added earlier in the script"

end Rejection

/-! ## Cautions -/

/-- What of a command that is kept could not be done. -/
inductive Caution where
  /-- A value was given for a row that the table, of so many rows, does not have. -/
  | rowOutOfBounds (row : Int) (table : CodePoints) (rows : Nat)
  /-- More values were given than the table has columns. -/
  | tooManyValues (table : CodePoints) (columns values : Nat)
deriving DecidableEq, Repr

namespace Caution

/-- The kind of problem that a note is about. -/
def kind : Caution → ProblemKind
  | rowOutOfBounds .. => .rowOutOfBounds
  | tooManyValues .. => .tooManyValues

/-- The wording of a note. -/
def message : Caution → CodePoints
  | rowOutOfBounds row table rows =>
    "Row " ++ toString row ++ " is out of bounds for table '" ++ table ++ "' (" ++ toString rows
      ++ " rows); cell skipped"
  | tooManyValues table columns values =>
    "Table '" ++ table ++ "' has " ++ toString columns ++ " columns but " ++ toString values
      ++ " values were given; extra values dropped"

end Caution

/-! ## The position in a wording -/

/-- The digits at the start of the text behind one of the words for a position, if there are any. -/
def positionAt? (s : List Char) : Option (List Char) := do
  let rest ← (Text.dropStart? "at position ".toList s).or (Text.dropStart? "(position ".toList s)
  let digits := rest.takeWhile Text.isDigit
  if digits.isEmpty then none else some digits

/-- The digits of the first position that a text mentions. -/
def findPosition? : List Char → Option (List Char)
  | [] => none
  | c :: rest => (positionAt? (c :: rest)).or (findPosition? rest)

/-- The first position that a text mentions. -/
def positionIn (text : String) : Except Text.Numeral.TooLong (Option Nat) :=
  match findPosition? text.toList with
  | none => .ok none
  | some digits => (Text.Numeral.read digits).map some

/-- The position of a fault within the command, as its wording gives it. -/
def faultPosition (f : Fault) : Except Text.Numeral.TooLong (Option Nat) :=
  positionIn f.message

end Storyboard.Script
