-- SUMMARY: The program: reads files and lines, prints what a run says, and returns its exit code.
import Storyboard.CommandLine.Run

/-!
# The program

The only module that reads or prints anything. All decisions are those of
`CommandLine.start` and `Session.step`.
-/

namespace Storyboard.CommandLine

/-- What is found at a path. The code of the operating system for a directory that is read as a
    file is 21. -/
def readEntry (path : String) : IO Entry := do
  try
    let bytes ← IO.FS.readBinFile path
    return .file bytes.toList
  catch e =>
    match e with
    | .inappropriateType _ 21 _ => return .directory
    | _ => return .missing

/-- The disk as far as a command line can ask for it: the files that its options name. -/
def readDisk (argv : List String) : IO Disk := do
  match Options.read argv with
  | .error _ => return fun _ => .missing
  | .ok o =>
    let mut found : List (Path × Entry) := []
    for name in o.tables :: o.file.toList do
      let path := Path.ofString name
      let entry ← readEntry path.text
      found := (path, entry) :: found
    let entries := found
    return fun path => ((entries.find? (·.1 == path)).map (·.2)).getD .missing

/-- Holds a session with the lines of the standard input. -/
def converse (level : LogLevel) (fresh : IdSupply) (tables : List Table) : IO UInt32 := do
  let stdin ← IO.getStdin
  let stdout ← IO.getStdout
  let mut session := Session.initial tables
  IO.print (Session.greeting tables ++ session.prompt)
  repeat
    stdout.flush
    let line ← stdin.getLine
    let text := line.toList
    let event : Session.Event :=
      if line.isEmpty then .endOfInput
      else .line (if text.getLast? = some '\n' then text.dropLast else text)
    let reply := session.step fresh event
    IO.eprint (Log.shown level reply.log)
    IO.print reply.printed
    match reply.status with
    | .running next => session := next
    | .ended => return 0
    | .failed f =>
      IO.eprintln f.message
      return 1
  return 0

/-- A whole run on the real disk. -/
def perform (argv : List String) : IO UInt32 := do
  let disk ← readDisk argv
  let first ← IO.rand 0 (IdSupply.wide - 1)
  let fresh := IdSupply.wideFrom first
  match start disk fresh argv with
  | .finished r =>
    IO.print r.output
    IO.eprint r.errors
    match r.exit with
    | .code n => return n.toUInt32
    | .crash c =>
      IO.eprintln c.message
      return 1
  | .session tables level errors =>
    IO.eprint errors
    converse level fresh tables

end Storyboard.CommandLine

def main (argv : List String) : IO UInt32 :=
  Storyboard.CommandLine.perform argv
