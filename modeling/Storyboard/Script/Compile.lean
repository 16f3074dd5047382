-- SUMMARY: Compiling a script: one verdict for each command, and the actions, diagnostics and log lines that follow from the verdicts.
import Storyboard.Log
import Storyboard.Script.Resolve
import Storyboard.Script.Split

/-!
# Compiling

A script is compiled against a table collection by judging its commands in order.
Every command is judged against the tables as they are before the script, and a
command that adds a column which an earlier kept one adds is rejected. The result is
the list of verdicts; actions and diagnostics are read off it, in script order.
-/

namespace Storyboard.Script

/-! ## Verdicts -/

/-- A command and what becomes of it. -/
structure Verdict where
  command : CommandText
  outcome : Outcome
deriving DecidableEq, Repr

/-- The columns that kept commands add, as table ids with column names. -/
abbrev AddedColumns := List (CodePoints × CodePoints)

/-- The column that an outcome adds. -/
def Outcome.addedColumn? : Outcome → Option (CodePoints × CodePoints)
  | kept ⟨.addColumn table name _, _⟩ => some (table, name)
  | _ => none

/-- The outcome with regard to the columns added before it: none is added twice. -/
def Outcome.amid (added : AddedColumns) (o : Outcome) : Outcome :=
  match o.addedColumn? with
  | some (table, name) =>
    if (table, name) ∈ added then .rejected (.columnAdded name) none else o
  | none => o

/-- The verdicts on commands one after the other, up to a numeral that is too long. -/
def judge (tables : List Table) (added : AddedColumns) :
    List CommandText → List Verdict × Option Text.Numeral.TooLong
  | [] => ([], none)
  | command :: rest =>
    match interpret tables command.text with
    | .error e => ([], some e)
    | .ok outcome =>
      let outcome := outcome.amid added
      let (verdicts, stop) := judge tables (outcome.addedColumn?.toList ++ added) rest
      (⟨command, outcome⟩ :: verdicts, stop)

/-! ## Compiled scripts -/

/-- How much a problem matters: an error costs the command, a warning does not. -/
inductive Severity where
  | error
  | warning
deriving DecidableEq, Repr

/-- A problem with a command of a script. -/
structure Diagnostic where
  kind : ProblemKind
  severity : Severity
  message : CodePoints
  command : CommandText
  /-- The number of characters of the script before the fault, where that is known. -/
  position : Option Nat
deriving DecidableEq, Repr

/-- The problems of a verdict. -/
def Verdict.diagnostics (v : Verdict) : List Diagnostic :=
  match v.outcome with
  | .rejected cause position =>
    [{ kind := cause.kind, severity := .error, message := cause.message, command := v.command
       position := position.map (v.command.offset + ·) }]
  | .kept r =>
    r.cautions.map fun c =>
      { kind := c.kind, severity := .warning, message := c.message, command := v.command
        position := none }

/-- The action of a command that is kept. -/
def Verdict.action? (v : Verdict) : Option Action :=
  match v.outcome with
  | .rejected .. => none
  | .kept r => some r.action

/-- A compiled script: the verdicts on all its commands. -/
structure Compiled where
  verdicts : List Verdict
deriving DecidableEq, Repr

namespace Compiled

/-- The actions of the kept commands. -/
def actions (c : Compiled) : List Action :=
  c.verdicts.filterMap Verdict.action?

/-- All problems. -/
def diagnostics (c : Compiled) : List Diagnostic :=
  c.verdicts.flatMap Verdict.diagnostics

/-- The number of commands. -/
def commandCount (c : Compiled) : Nat :=
  c.verdicts.length

/-- The problems that cost a command. -/
def errors (c : Compiled) : List Diagnostic :=
  c.diagnostics.filter (·.severity = .error)

/-- The problems that cost no command. -/
def warnings (c : Compiled) : List Diagnostic :=
  c.diagnostics.filter (·.severity = .warning)

/-- Why there is nothing to show. -/
inductive NoActions where
  | noCommands
  | allRejected (errors commands : Nat)
deriving DecidableEq, Repr

/-- The wording of the reason. -/
def NoActions.message : NoActions → String
  | noCommands => "Script contains no commands"
  | allRejected errors commands =>
    "No valid actions found (" ++ toString errors ++ " of " ++ toString commands
      ++ " commands rejected)"

/-- The actions, of which there must be at least one. -/
def requireActions (c : Compiled) : Except NoActions (List Action) :=
  if c.verdicts.isEmpty then .error .noCommands
  else if c.actions.isEmpty then .error (.allRejected c.errors.length c.commandCount)
  else .ok c.actions

end Compiled

/-- Compiling stopped at a numeral that is too long, after the verdicts on the commands before. -/
structure Interrupted where
  before : Compiled
  reason : Text.Numeral.TooLong
deriving DecidableEq, Repr

/-- Compiles a script against a collection. -/
def compile (tables : List Table) (script : List Char) : Except Interrupted Compiled :=
  match judge tables [] (split script) with
  | (verdicts, none) => .ok ⟨verdicts⟩
  | (verdicts, some e) => .error ⟨⟨verdicts⟩, e⟩

/-! ## Log -/

/-- The log line on a problem. -/
def Diagnostic.logLine (d : Diagnostic) : LogLine :=
  match d.severity with
  | .error =>
    ⟨.error, "Skipping command at offset " ++ toString d.command.offset ++ ": " ++ d.message⟩
  | .warning => ⟨.warning, "Command at offset " ++ toString d.command.offset ++ ": " ++ d.message⟩

/-- The log line on the whole script. -/
def Compiled.closingLine (c : Compiled) : LogLine :=
  if c.verdicts.isEmpty then ⟨.info, "Script contains no commands"⟩
  else if c.actions.isEmpty then ⟨.warning, "No valid actions found in script"⟩
  else
    ⟨.debug,
      "Compiled " ++ toString c.actions.length ++ " of " ++ toString c.commandCount ++ " commands"⟩

/-- What compiling a script has to say. -/
def Compiled.log (c : Compiled) : List LogLine :=
  c.diagnostics.map Diagnostic.logLine ++ [c.closingLine]

/-- What compiling had to say before it stopped. -/
def Interrupted.log (i : Interrupted) : List LogLine :=
  i.before.diagnostics.map Diagnostic.logLine

end Storyboard.Script
