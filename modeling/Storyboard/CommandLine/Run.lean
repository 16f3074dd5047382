-- SUMMARY: What the program does with a command line, a disk and the lines of its input.
import Storyboard.CommandLine.Disk
import Storyboard.CommandLine.Options
import Storyboard.CommandLine.Usage
import Storyboard.Frame.Export
import Storyboard.Session
import Storyboard.Text.Utf8

/-!
# Runs

A run reads its options, loads the tables, and then plays the script of a file or of
an option, or starts a session. `start` goes as far as it can without input; `run`
feeds a session with given events up to its end.
-/

namespace Storyboard.CommandLine

/-! ## Reports -/

/-- A fault that ends the program without a message of its own. -/
inductive Crash where
  | numeral (e : Text.Numeral.TooLong)
  | bytes (f : Text.Utf8.Fault)
  | text (f : Print.Fault)
  | noLevel
deriving DecidableEq, Repr

/-- The wording of a fault. -/
def Crash.message : Crash → String
  | numeral e => e.message
  | bytes f => f.message
  | text f => f.message
  | noLevel => "attribute name must be string, not 'list'"

/-- How a run ends. -/
inductive Exit where
  | code (n : Nat)
  | crash (c : Crash)
deriving DecidableEq, Repr

/-- What a run has printed and how it ended. -/
structure Report where
  exit : Exit
  output : String
  errors : String
deriving DecidableEq, Repr

/-- A run up to its end, or up to where it needs input. -/
inductive Progress where
  | finished (r : Report)
  /-- A session on tables is to begin, after what has been printed to the error stream. -/
  | session (tables : List Table) (level : LogLevel) (errors : String)

namespace Report

/-- A report with more in front of its error stream. -/
def after (errors : String) (r : Report) : Report :=
  { r with errors := errors ++ r.errors }

/-- A run that fails with a message. -/
def failure (code : Nat) (message : CodePoints) : Report where
  exit := .code code
  output := ""
  errors := Print.escaped message ++ "\n"

end Report

/-! ## Scripts -/

/-- A number of things, in words. -/
def counted (n : Nat) (thing : String) : String :=
  toString n ++ " " ++ thing ++ if n = 1 then "" else "s"

/-- The summary of a compiled script: how many commands have come to what, and its actions. -/
def summary (c : Script.Compiled) : String :=
  let skipped := c.errors.length
  counted c.actions.length "action" ++ " from " ++ counted c.commandCount "command"
    ++ (if skipped = 0 then "" else ", " ++ toString skipped ++ " skipped") ++ "\n"
    ++ String.join (c.actions.map fun a => "  " ++ a.summary ++ "\n") ++ "\n"

/-- The texts of the frames as the options want them. -/
def showFrames (o : Options) (frames : List Frame) : List CodePoints :=
  if o.json then [(Frame.exportJson frames o.delay).write (some 2) ++ "\n"]
  else
    let delay : List CodePoints :=
      match o.delay with
      | none => []
      | some delay => ["Frame delay: " ++ delay.text ++ "ms\n\n"]
    delay ++ Session.showFrames frames 0

/-- Plays a script. Its log is complete before the first frame is printed. -/
def runScript (o : Options) (ids : IdSupply) (tables : List Table) (script : List Char) : Report :=
  match Script.compile tables script with
  | .error i =>
    { exit := .crash (.numeral i.reason), output := "", errors := Log.shown o.logLevel i.log }
  | .ok compiled =>
    let log := Log.shown o.logLevel compiled.log
    match compiled.requireActions with
    | .error .noCommands => (Report.failure 1 "No commands found in script").after log
    | .error (.allRejected ..) => (Report.failure 1 "No valid actions found in script").after log
    | .ok actions =>
      let printed := Print.texts (showFrames o (Frame.sequence ids tables actions))
      { exit :=
          match printed.fault with
          | none => .code 0
          | some f => .crash (.text f)
        output := (if o.verbose then summary compiled else "") ++ printed.output
        errors := log ++ Log.shown o.logLevel (Frame.sequenceLog ids tables actions) }

/-! ## Files -/

/-- The wording of an attempt to read a directory as a file. -/
def isDirectory (path : Path) : String :=
  "[Errno 21] Is a directory: " ++ Text.quoted path.text

/-- The text of a file. -/
def textOf (bytes : List UInt8) : Except Text.Utf8.Fault (List Char) :=
  (Text.Utf8.decode bytes).map Text.unifyLineEnds

/-- Loads the tables of a file, or says why it cannot. -/
def loadTables (disk : Disk) (path : Path) : Except CodePoints (List Table) :=
  match disk path with
  | .missing => .error ("Error: Tables file not found: " ++ path.text)
  | .directory => .error ("Error loading tables: " ++ isDirectory path)
  | .file bytes =>
    match textOf bytes with
    | .error f => .error ("Error loading tables: " ++ f.message)
    | .ok text => (Tables.load text).mapError fun e => "Error loading tables: " ++ e.message

/-- Plays the script of a file. -/
def runFile (o : Options) (disk : Disk) (ids : IdSupply) (tables : List Table) (path : Path) :
    Report :=
  match disk path with
  | .missing => Report.failure 1 ("Error: File not found: " ++ path.text)
  | .directory => Report.failure 1 ("Error reading file: " ++ isDirectory path)
  | .file bytes =>
    match textOf bytes with
    | .error f => { exit := .crash (.bytes f), output := "", errors := "" }
    | .ok script => runScript o ids tables script

/-! ## Runs -/

/-- The ids of new rows and columns: in sequence if that is wanted, else from the given supply. -/
def idsFor (o : Options) (fresh : IdSupply) : IdSupply :=
  if o.stableIds then .counting "new" else fresh

/-- A run with its options, after the tables have been loaded. The script of a file comes before
    that of an option, and an empty option is none. -/
def proceed (o : Options) (disk : Disk) (fresh : IdSupply) (tables : List Table)
    (loaded : String) : Progress :=
  match o.file, o.command with
  | some file, _ =>
    .finished ((runFile o disk (idsFor o fresh) tables (.ofString file)).after loaded)
  | none, some command =>
    if command = "" then .session tables o.logLevel loaded
    else .finished ((runScript o (idsFor o fresh) tables command.toList).after loaded)
  | none, none => .session tables o.logLevel loaded

/-- A run as far as it goes without input. -/
def start (disk : Disk) (fresh : IdSupply) (argv : List String) : Progress :=
  match Options.read argv with
  | .error .help => .finished { exit := .code 0, output := helpText, errors := "" }
  | .error (.usage e) =>
    .finished (Report.after usage (.failure 2 (programName ++ ": error: " ++ e.message)))
  | .error .noLevel => .finished { exit := .crash .noLevel, output := "", errors := "" }
  | .ok o =>
    let path := Path.ofString o.tables
    match loadTables disk path with
    | .error message => .finished (.failure 1 message)
    | .ok tables =>
      let loaded : LogLine :=
        ⟨.info, "Loaded " ++ toString tables.length ++ " tables from " ++ path.text⟩
      proceed o disk fresh tables (Log.shown o.logLevel [loaded])

/-- The end of a session, as the end of a run. -/
def exitOf : Session.Status → Exit
  | .failed (.numeral e) => .crash (.numeral e)
  | .failed (.text f) => .crash (.text f)
  | _ => .code 0

/-- The report of a session that is fed with events. -/
def runSession (level : LogLevel) (fresh : IdSupply) (tables : List Table)
    (events : List Session.Event) : Report :=
  let s := Session.initial tables
  let replies := s.replies fresh events
  { exit := exitOf ((replies.getLast?.map (·.status)).getD .ended)
    output := Session.greeting tables ++ s.prompt ++ String.join (replies.map (·.printed))
    errors := String.join (replies.map fun r => Log.shown level r.log) }

/-- A whole run. -/
def run (disk : Disk) (fresh : IdSupply) (argv : List String) (events : List Session.Event) :
    Report :=
  match start disk fresh argv with
  | .finished r => r
  | .session tables level errors => (runSession level fresh tables events).after errors

end Storyboard.CommandLine
