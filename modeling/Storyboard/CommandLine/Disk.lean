-- SUMMARY: Paths, and the files and directories found there.

/-!
# Disks

A disk says what is found at a path. A path is shown in a short form, without empty
and idle parts; the parts that lead upwards are kept.
-/

namespace Storyboard.CommandLine

/-! ## Paths -/

/-- A path: what stands before its first part, which is a slash or two if it is absolute, and its
    parts. -/
structure Path where
  root : String
  parts : List String
deriving DecidableEq, Repr

namespace Path

/-- The pieces of a text between its slashes. -/
def pieces : List Char → List (List Char)
  | [] => [[]]
  | c :: rest =>
    if c = '/' then [] :: pieces rest
    else
      match pieces rest with
      | [] => [[c]]
      | piece :: more => (c :: piece) :: more

/-- What stands before the first part of a path. -/
def rootOf : List Char → String
  | '/' :: '/' :: '/' :: _ => "/"
  | '/' :: '/' :: _ => "//"
  | '/' :: _ => "/"
  | _ => ""

/-- The path that a text names. -/
def ofString (s : String) : Path where
  root := rootOf s.toList
  parts := ((pieces s.toList).map String.ofList).filter fun part => part ≠ "" && part ≠ "."

/-- The short form of a path. -/
def text (p : Path) : String :=
  if p.root = "" && p.parts.isEmpty then "." else p.root ++ String.intercalate "/" p.parts

end Path

/-! ## Disks -/

/-- What is found at a path. -/
inductive Entry where
  | missing
  | directory
  | file (bytes : List UInt8)

/-- What is found at each path. -/
abbrev Disk := Path → Entry

namespace Disk

/-- The files below one directory, by the parts of their paths. -/
abbrev Files := List (List String × List UInt8)

/-- What is found below the directory at a path from it without parts that lead upwards: the
    directories are those that the paths of the files pass through. -/
def Files.find (files : Files) (parts : List String) : Entry :=
  match files.find? (·.1 == parts) with
  | some (_, bytes) => .file bytes
  | none =>
    if parts.isEmpty || files.any fun (other, _) => parts.isPrefixOf other then .directory
    else .missing

/-- What is found on the way from a directory of which only the way up is known. It leads from
    directory to directory, and at the root it stays there. -/
def above (parts : List String) : Entry :=
  if parts.all (· = "..") then .directory else .missing

/-- Follows parts from a directory on. Above the files' own directory only the way up is known. -/
def Files.follow (files : Files) (here : List String) : List String → Entry
  | [] => files.find here
  | part :: rest =>
    match files.find here with
    | .directory =>
      if part = ".." then
        if here.isEmpty then above rest
        else files.follow here.dropLast rest
      else files.follow (here ++ [part]) rest
    | _ => .missing

/-- The disk on which a program started in a directory finds the files. Of the root, too, only the
    way up is known. -/
def ofFiles (files : List (String × List UInt8)) : Disk := fun path =>
  let files := files.map fun (name, bytes) => ((Path.ofString name).parts, bytes)
  if path.root = "" then Files.follow files [] path.parts else above path.parts

end Disk

end Storyboard.CommandLine
