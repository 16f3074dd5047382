-- SUMMARY: The interactive session, as a machine that takes one line at a time.
import Storyboard.Frame.Grid
import Storyboard.Script.Compile

/-!
# Sessions

A session collects lines until a command is complete, compiles it together with all
that has been accepted before, and keeps it if the script then has another number of
actions. `Session.step` takes one event and replies with what to print, what to log,
and how the session goes on; reading and printing are left to the caller.
-/

namespace Storyboard

open Script (Compiled Interrupted)

/-! ## States and replies -/

/-- The state of a session: its tables, the texts accepted so far, and the lines of a text that is
    not complete yet. -/
structure Session where
  tables : List Table
  accepted : List (List Char)
  buffer : List (List Char)
deriving DecidableEq, Repr

/-- What can happen at a prompt. -/
inductive Session.Event where
  | line (text : List Char)
  | interrupt
  | endOfInput
deriving DecidableEq, Repr

/-- Why a session cannot go on. -/
inductive Session.Fault where
  | numeral (e : Text.Numeral.TooLong)
  | text (f : Print.Fault)
deriving DecidableEq, Repr

/-- The wording of a fault. -/
def Session.Fault.message : Session.Fault → String
  | numeral e => e.message
  | text f => f.message

/-- How a session goes on after an event. -/
inductive Session.Status where
  | running (s : Session)
  | ended
  | failed (f : Session.Fault)
deriving DecidableEq, Repr

/-- The reply to an event. -/
structure Session.Reply where
  output : String
  log : List LogLine
  status : Session.Status
deriving DecidableEq, Repr

namespace Session

/-- The session at its start. -/
def initial (tables : List Table) : Session where
  tables := tables
  accepted := []
  buffer := []

/-- The prompt, which shows whether a text is being continued. -/
def prompt (s : Session) : String :=
  if s.buffer.isEmpty then "tanim> " else "   ... "

/-- The texts joined to one script. -/
def joinTexts (texts : List (List Char)) : List Char :=
  List.intercalate [';', '\n'] texts

/-- The script of what has been accepted. -/
def script (s : Session) : List Char :=
  joinTexts s.accepted

/-- What is printed before the first prompt. -/
def greeting (tables : List Table) : String :=
  let names :=
    if tables.isEmpty then "none"
    else String.intercalate ", " (tables.map fun t => Text.quoted t.name)
  "Table animation REPL\nTables: " ++ names ++ "\nType 'help' for commands, 'exit' to quit.\n\n"

/-- The help on commands. -/
def help : String :=
  "\nCommands (end each with ';', or press Enter on an empty line):\n\n"
    ++ "  highlight in table 'T' row 1,2            Highlight rows (1-based)\n"
    ++ "  highlight in table 'T' column 'C'         Highlight a column\n"
    ++ "  highlight in table 'T' column 'C' row 2   Highlight one cell\n"
    ++ "  add in table 'T' column 'C' cells [\x7b1-'x'\x7d \x7b3-'y'\x7d]\n"
    ++ "                                            Add a column, seeding some cells\n"
    ++ "  add in table 'T' row [\x7b'a'\x7d \x7b'b'\x7d]        Add a row, values in column order\n"
    ++ "  add in table 'T' row [\x7b'C'-'v'\x7d]          Add a row, values by column name\n\n"
    ++ "REPL commands:\n\n"
    ++ "  tables     Show the tables as they stand after the script\n"
    ++ "  frames     Show every frame of the script so far\n"
    ++ "  script     Show the accepted script\n"
    ++ "  reset      Forget the script\n"
    ++ "  help       Show this help\n"
    ++ "  exit       Quit\n\n"

/-! ## Words of the session -/

/-- The words that a session itself understands. -/
inductive Word where
  | exit
  | help
  | reset
  | script
  | frames
  | tables
deriving DecidableEq, Repr

/-- A text without the semicolons at its end. -/
def dropSemicolons (s : List Char) : List Char :=
  Text.dropRightWhile (· = ';') s

/-- The word that a line is, whatever the case of its letters; semicolons at its end do not count. -/
def Word.ofLine? (line : List Char) : Option Word :=
  let w := String.ofList (Text.lower (dropSemicolons (Text.strip line)))
  if w = "exit" ∨ w = "quit" then some exit
  else if w = "help" then some help
  else if w = "reset" then some reset
  else if w = "script" then some script
  else if w = "frames" then some frames
  else if w = "tables" then some tables
  else none

/-! ## Showing -/

/-- The texts of all frames but the first few, each with its title and followed by a blank line. -/
def showFrames (frames : List Frame) (skipped : Nat) : List CodePoints :=
  let total := frames.length
  (frames.zipIdx.drop skipped).map fun (frame, i) =>
    frame.grid (some (i : Int)) (some (total : Int)) ++ "\n\n"

/-- The texts of tables with nothing highlighted, each followed by a blank line. -/
def showTables (tables : List Table) : List CodePoints :=
  tables.map fun t => t.grid .empty ++ "\n\n"

/-- The reply that fails with an interrupted compilation, after what has been logged. -/
def fail (log : List LogLine) (i : Interrupted) : Reply where
  output := ""
  log := log ++ i.log
  status := .failed (.numeral i.reason)

/-- The reply that prints texts and goes on with a session, unless a text cannot be printed. -/
def say (log : List LogLine) (texts : List CodePoints) (s : Session) : Reply :=
  let printed := Print.texts texts
  { output := printed.output
    log
    status :=
      match printed.fault with
      | none => .running s
      | some f => .failed (.text f) }

/-- The reply that goes on in the same state and shows something of the frames so far. -/
def replyFrames (ids : IdSupply) (s : Session) (view : List Frame → List CodePoints) : Reply :=
  match Script.compile s.tables s.script with
  | .error i => fail [] i
  | .ok compiled =>
    say (compiled.log ++ Frame.sequenceLog ids s.tables compiled.actions)
      (view (Frame.sequence ids s.tables compiled.actions)) s

/-- The reply to a word. -/
def replyWord (ids : IdSupply) (s : Session) : Word → Reply
  | .exit => { output := "", log := [], status := .ended }
  | .help => { output := Session.help, log := [], status := .running s }
  | .reset =>
    { output := "Script cleared.\n", log := [], status := .running { s with accepted := [] } }
  | .script =>
    { output :=
        if s.accepted.isEmpty then "(empty script)\n" else String.ofList s.script ++ ";\n"
      log := []
      status := .running s }
  | .frames => replyFrames ids s (showFrames · 0)
  | .tables => replyFrames ids s fun frames => showTables ((frames.getLast?.map (·.tables)).getD [])

/-! ## Texts -/

/-- The reply to a complete text. It is accepted if with it the script has another number of
    actions, and the frames behind those of the script before it are shown. -/
def submit (ids : IdSupply) (s : Session) (text : List Char) : Reply :=
  match Script.compile s.tables s.script with
  | .error i => fail [] i
  | .ok before =>
    match Script.compile s.tables (joinTexts (s.accepted ++ [text])) with
    | .error i => fail before.log i
    | .ok after =>
      if after.actions.length = before.actions.length then
        { output := "Command skipped.\n", log := before.log ++ after.log, status := .running s }
      else
        say (before.log ++ after.log ++ Frame.sequenceLog ids s.tables after.actions)
          (showFrames (Frame.sequence ids s.tables after.actions) (before.actions.length + 1))
          { s with accepted := s.accepted ++ [text] }

/-- The text that the lines of a buffer make up. -/
def textOf (buffer : List (List Char)) : List Char :=
  dropSemicolons (Text.strip (List.intercalate ['\n'] buffer))

/-- The reply to a line that goes on with a text. The text is complete at a line that ends with a
    semicolon or is blank. -/
def replyText (ids : IdSupply) (s : Session) (line : List Char) : Reply :=
  let stripped := Text.strip line
  let buffer := if stripped.isEmpty then s.buffer else s.buffer ++ [line]
  if !stripped.isEmpty && stripped.getLast? ≠ some ';' then
    { output := "", log := [], status := .running { s with buffer } }
  else
    let s := { s with buffer := [] }
    let text := textOf buffer
    if text.isEmpty then { output := "", log := [], status := .running s }
    else submit ids s text

/-! ## Steps -/

/-- The reply to an event. -/
def step (ids : IdSupply) (s : Session) : Event → Reply
  | .endOfInput => { output := "\n", log := [], status := .ended }
  | .interrupt => { output := "\n", log := [], status := .running { s with buffer := [] } }
  | .line text =>
    match s.buffer, Word.ofLine? text with
    | [], some w => replyWord ids s w
    | _, _ => replyText ids s text

/-- The replies to events one after the other, as long as the session runs; after the last event
    the input ends. -/
def replies (ids : IdSupply) (s : Session) : List Event → List Reply
  | [] => [s.step ids .endOfInput]
  | event :: rest =>
    let reply := s.step ids event
    match reply.status with
    | .running s => reply :: replies ids s rest
    | _ => [reply]

/-- What is printed for a reply: its output, and the next prompt if the session goes on. -/
def Reply.printed (r : Reply) : String :=
  match r.status with
  | .running s => r.output ++ s.prompt
  | _ => r.output

end Session

end Storyboard
