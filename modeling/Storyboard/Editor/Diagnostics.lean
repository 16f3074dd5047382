-- SUMMARY: The problems of a document as an editor shows them.
import Storyboard.Editor.Position
import Storyboard.Script.Compile

/-!
# Diagnostics

With a table collection at hand a document is compiled, and every problem is shown at
its range: one character where the position of the fault is known, else the whole
command. Without one only the form of the commands is checked.
-/

namespace Storyboard.Editor

open Script (Severity)

/-- A problem of a document with the range that it is shown at. -/
structure Diagnostic where
  range : Range
  severity : Severity
  message : CodePoints
deriving DecidableEq, Repr

/-- The range of a problem with a command: the character of its fault, else the whole command. -/
def rangeOf (source : List Char) (command : Script.CommandText) : Option Nat → Range
  | some position => (positionAt source position).single
  | none =>
    { start := positionAt source command.offset
      stop := positionAt source command.stop }

/-- The problem of a compiled script as it is shown. -/
def Diagnostic.ofCompiled (source : List Char) (d : Script.Diagnostic) : Diagnostic where
  range := rangeOf source d.command d.position
  severity := d.severity
  message := d.message

/-- The problem of form that a command has, if it has one. -/
def formDiagnostic? (source : List Char) (command : Script.CommandText) :
    Except Text.Numeral.TooLong (Option Diagnostic) :=
  match Script.parse command.text with
  | .ok _ => .ok none
  | .error (.numeral e) => .error e
  | .error (.fault f) => do
    let position ← Script.faultPosition f
    .ok (some
      { range := rangeOf source command (position.map (command.offset + ·))
        severity := .error
        message := "Invalid command: " ++ f.message })

/-- The problems of form of a document. -/
def formDiagnostics (source : List Char) : Except Text.Numeral.TooLong (List Diagnostic) := do
  let found ← (Script.split source).mapM (formDiagnostic? source)
  .ok (found.filterMap id)

/-- The problems of a document: on a collection all of them, else those of form. -/
def diagnostics (tables : Option (List Table)) (source : List Char) :
    Except Text.Numeral.TooLong (List Diagnostic) :=
  match tables with
  | none => formDiagnostics source
  | some tables =>
    match Script.compile tables source with
    | .ok compiled => .ok (compiled.diagnostics.map (.ofCompiled source))
    | .error stopped => .error stopped.reason

end Storyboard.Editor
