-- SUMMARY: What an editor offers to go on with, and what it says about a word.
import Storyboard.Script.Token
import Storyboard.Table
import Storyboard.Text.WordChar

/-!
# Completion and hover

After the word `table` the names of the tables are offered, after `column` those of
the columns of the table that the line names first, and elsewhere the reserved words.
A reserved word under the pointer is explained.
-/

namespace Storyboard.Editor

open Script (Keyword)

/-! ## Reserved words -/

/-- What a reserved word is for. -/
def explanation : Keyword → String
  | .highlight => "Emphasize rows, a column, or a cell of a table"
  | .add => "Append a column or a row to a table"
  | .within => "Used with 'in table'"
  | .table => "Names the target table: table 'name'"
  | .row => "Row numbers (1-based, comma-separated) or 'add … row'"
  | .column => "Names a column: column 'name'"
  | .cells => "Seed values of a new column: cells [\x7b1-'value'\x7d …]"

/-! ## Words -/

/-- The word that a text has around its first `n` characters: what goes up to there of it and what
    follows. -/
def wordAround (text : List Char) (n : Nat) : List Char :=
  ((text.take n).reverse.takeWhile Text.isWordChar).reverse
    ++ (text.drop n).takeWhile Text.isWordChar

/-- The word that the character at a place of a line belongs to; empty if it belongs to none. -/
def wordAt (text : List Char) (place : Int) : List Char :=
  if place < 0 then []
  else
    match text[place.toNat]? with
    | none => []
    | some c => if Text.isWordChar c then wordAround text place.toNat else []

/-- The explanation of the reserved word at a place of a line. -/
def hover? (text : List Char) (place : Int) : Option String :=
  (Keyword.ofWord? (wordAt text place)).map fun k =>
    "**" ++ k.word ++ "** — " ++ explanation k

/-! ## Completion -/

/-- The kinds of what is offered. -/
inductive ItemKind where
  | keyword
  | name
deriving DecidableEq, Repr

/-- Something that is offered. -/
structure Item where
  label : CodePoints
  kind : ItemKind
  detail : CodePoints
deriving DecidableEq, Repr

/-- The rest of a text after a word at its start, whatever the case of its letters. -/
def dropWord? (word : String) (s : List Char) : Option (List Char) :=
  let n := word.length
  if Text.lower (s.take n) = word.toList then some (s.drop n) else none

/-- The table name at the start of a text: the word `table`, blanks, and a name between two equal
    quotes on one line. -/
def tableNameAt? (s : List Char) : Option (List Char) := do
  let rest ← dropWord? "table" s
  if (rest.takeWhile Text.isBlank).isEmpty then none
  else
    match rest.dropWhile Text.isBlank with
    | [] => none
    | q :: after =>
      let name := after.takeWhile (· ≠ q)
      if Script.isQuote q && name.length < after.length && !name.contains '\n' then some name
      else none

/-- The table name that a text mentions first. -/
def findTableName? : List Char → Option (List Char)
  | [] => none
  | c :: rest => (tableNameAt? (c :: rest)).or (findTableName? rest)

/-- A name between single quotes. -/
def nameLabel (name : CodePoints) : CodePoints :=
  "'" ++ name ++ "'"

/-- The names of the tables. -/
def tableItems (tables : List Table) : List Item :=
  tables.map fun t => { label := nameLabel t.name, kind := .name, detail := "Table" }

/-- The names of the columns of a table. -/
def columnItems (table : Table) : List Item :=
  table.columns.map fun c =>
    { label := nameLabel c.name, kind := .name, detail := "Column of " ++ table.name }

/-- The reserved words. -/
def keywordItems : List Item :=
  Keyword.all.map fun k => { label := k.word, kind := .keyword, detail := explanation k }

/-- What is offered after the part of a line before the cursor. -/
def completions (tables : List Table) (before : List Char) : List Item :=
  let last := Text.lower (Text.lastWord before)
  if last = "table".toList then tableItems tables
  else if last = "column".toList then
    match findTableName? before with
    | none => []
    | some name =>
      match Tables.named? tables (.ofChars name) with
      | none => []
      | some table => columnItems table
  else keywordItems

end Storyboard.Editor
