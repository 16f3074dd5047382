-- SUMMARY: An open document with the table collection beside it, and the requests of an editor on it.
import Storyboard.Editor.Completion
import Storyboard.Editor.Diagnostics
import Storyboard.Table.Collection
import Storyboard.Text.Utf8

/-!
# Documents

A document is edited beside a file with a table collection, which may be missing or
broken: then there is no collection. Completion and hover look at the lines of the
document, which end at every kind of line end that text may have.
-/

namespace Storyboard.Editor

/-- The name of the file with the collection. -/
def tablesFile : String := "tables.json"

/-- Characters that end a line. -/
def isLineEnd (c : Char) : Bool :=
  let n := c.toNat
  (0x0A ≤ n && n ≤ 0x0D) || (0x1C ≤ n && n ≤ 0x1E) || n == 0x85 || n == 0x2028 || n == 0x2029

/-- The lines of a document, each with its line end; a carriage return and a line feed are one. -/
def documentLines : List Char → List (List Char)
  | [] => []
  | '\r' :: '\n' :: rest => ['\r', '\n'] :: documentLines rest
  | c :: rest =>
    if isLineEnd c then [c] :: documentLines rest
    else
      match documentLines rest with
      | [] => [[c]]
      | line :: more => (c :: line) :: more

/-- The lines are the whole document. -/
theorem flatten_documentLines (s : List Char) : (documentLines s).flatten = s := by
  fun_induction documentLines s with
  | case1 => rfl
  | case2 rest ih => simp [ih]
  | case3 c rest _ h ih => simp [ih]
  | case4 c rest _ h hn ih => rw [hn] at ih; simp [← ih]
  | case5 c rest _ h line more hl ih => rw [hl] at ih; simp [← ih]

/-- The state of an editor on one document. -/
structure Document where
  /-- Whether the document is a file, beside which there can be others. -/
  isFile : Bool
  /-- The text of the file with the collection, if there is one. -/
  tablesText : Option (List Char)
  source : List Char

namespace Document

/-- The document before it is opened. -/
def initial (isFile : Bool) : Document where
  isFile := isFile
  tablesText := none
  source := []

/-- The collection beside the document. -/
def tables (d : Document) : Option (List Table) :=
  if d.isFile then do
    let text ← d.tablesText
    (Tables.load (Text.unifyLineEnds text)).toOption
  else none

/-- The problems to show. -/
def diagnostics (d : Document) : Except Text.Numeral.TooLong (List Diagnostic) :=
  Editor.diagnostics d.tables d.source

/-- What is offered at a place. -/
def complete (d : Document) (line character : Nat) : List Item :=
  let text := (documentLines d.source).getD line []
  completions (d.tables.getD []) (text.take character)

/-- The explanation of the word at a place. -/
def hover? (d : Document) (line character : Nat) : Option String := do
  let text ← (documentLines d.source)[line]?
  Editor.hover? text character

end Document

end Storyboard.Editor
