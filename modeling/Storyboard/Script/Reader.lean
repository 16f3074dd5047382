-- SUMMARY: A reader of commands that is used over and over, and compiling a script with it in one pass.
import Storyboard.Script.Compile

/-!
# Readers

A reader reads the texts of commands one after the other. The notes on the last command
that it has read stay with it until the next one (`Reader.read`). With a reader a script
is compiled in one pass: what a command comes to is written down at once, actions in one
list and problems in another, and the notes on a command are fetched from the reader
before it goes on (`Draft.step`). Any reader will do, whatever it has read before.
-/

namespace Storyboard.Script

/-! ## Reading commands -/

/-- A reader, with the notes on what it has read last. -/
structure Reader where
  cautions : List Caution
deriving DecidableEq, Repr

/-- What a reader makes of the text of a command. -/
inductive Reading where
  | action (a : Action)
  /-- The text is rejected, with the position of the fault where there is one. -/
  | failure (cause : Rejection) (position : Option Nat)
deriving DecidableEq, Repr

namespace Reader

/-- A reader that has read nothing. -/
def fresh : Reader where
  cautions := []

/-- The reader without its notes. -/
def cleared (r : Reader) : Reader :=
  { r with cautions := [] }

/-- The reader with more notes. -/
def noting (r : Reader) (cautions : List Caution) : Reader :=
  { r with cautions := r.cautions ++ cautions }

/-- Resolves a command; the reader takes down the notes on it. -/
def resolve (r : Reader) (tables : List Table) (c : Command) : Except Rejection Action × Reader :=
  match c.resolve tables with
  | .error cause => (.error cause, r)
  | .ok resolved => (.ok resolved.action, r.noting resolved.cautions)

/-- Reads the text of a command, the notes on the one before being dropped; an error if the text
    holds a numeral that is too long. -/
def read (r : Reader) (tables : List Table) (text : List Char) :
    Except Text.Numeral.TooLong Reading × Reader :=
  let r := r.cleared
  match parse text with
  | .error (.numeral e) => (.error e, r)
  | .error (.fault f) => ((faultPosition f).map (.failure (.malformed text f)), r)
  | .ok command =>
    match r.resolve tables command with
    | (.error cause, r) => (.ok (.failure cause none), r.cleared)
    | (.ok action, r) => (.ok (.action action), r)

end Reader

/-! ## Compiling in one pass -/

/-- The problem that a command is rejected. -/
def CommandText.refusal (c : CommandText) (cause : Rejection) (position : Option Nat) :
    Diagnostic where
  kind := cause.kind
  severity := .error
  message := cause.message
  command := c
  position := position.map (c.offset + ·)

/-- The problem that a note on a command is about. -/
def CommandText.warning (c : CommandText) (caution : Caution) : Diagnostic where
  kind := caution.kind
  severity := .warning
  message := caution.message
  command := c
  position := none

/-- A script that is being compiled: the reader, the columns added so far, and the result. -/
structure Draft where
  reader : Reader
  added : AddedColumns
  actions : List Action
  diagnostics : List Diagnostic
  commandCount : Nat
deriving DecidableEq, Repr

namespace Draft

/-- The draft of a script before its first command. -/
def empty (r : Reader) : Draft where
  reader := r
  added := []
  actions := []
  diagnostics := []
  commandCount := 0

/-- A command is rejected. -/
def refuse (d : Draft) (c : CommandText) (cause : Rejection) (position : Option Nat) : Draft :=
  { d with diagnostics := d.diagnostics ++ [c.refusal cause position] }

/-- A command is kept, with the notes that the reader has on it. -/
def keep (d : Draft) (c : CommandText) (a : Action) : Draft :=
  { d with
    actions := d.actions ++ [a]
    diagnostics := d.diagnostics ++ d.reader.cautions.map c.warning }

/-- Goes on with a command that the reader has just read. -/
def settle (d : Draft) (c : CommandText) : Reading → Draft
  | .failure cause position => d.refuse c cause position
  | .action (.addColumn table name seeds) =>
    if d.added.contains (table, name) then d.refuse c (.columnAdded name) none
    else { d with added := (table, name) :: d.added }.keep c (.addColumn table name seeds)
  | .action a => d.keep c a

/-- Takes in one more command. -/
def step (tables : List Table) (d : Draft) (c : CommandText) :
    Except Text.Numeral.TooLong Draft :=
  let (reading, reader) := d.reader.read tables c.text
  reading.map ({ d with reader, commandCount := d.commandCount + 1 }.settle c)

end Draft

/-- Compiles a script against a collection with a reader, which may have been used before. -/
def Reader.compile (r : Reader) (tables : List Table) (script : List Char) :
    Except Text.Numeral.TooLong Draft :=
  (split script).foldlM (Draft.step tables) (Draft.empty r)

end Storyboard.Script
