-- SUMMARY: Reading the tokens of one command, one after the other, by a machine whose states are the places in a command.
import Storyboard.Script.Command
import Storyboard.Script.Token

/-!
# Parsing

The command language has no nesting, so a command is read by a machine with one
state for each place in a command (`State`). A state holds what the command has said
so far. A token leads to the next state or fits nowhere (`State.next`), and at the
end of the text a state is a whole command or is not (`State.finish`).

A row number is turned into a number as soon as it is certain that it is one of the
command: the number of a single cell at once, any other when the token after it, or
the end, has shown that the command goes on as it may. Up to that moment a fault of
the text comes first.
-/

namespace Storyboard.Script

open Text (Numeral.TooLong)

/-! ## Faults -/

/-- What is wrong with a text that is no command. -/
inductive Fault where
  /-- A character that starts no token. -/
  | illegal (c : Char) (position : Nat)
  /-- A token that no command has at this place. -/
  | unexpected (text : String) (position : Nat)
  /-- The text ends within a command. -/
  | endOfInput
deriving DecidableEq, Repr

/-- The wording of a fault. -/
def Fault.message : Fault → String
  | illegal c position => "Illegal character '" ++ c.toString ++ "' at position " ++ toString position
  | unexpected text position =>
    "Syntax error at '" ++ text ++ "' (position " ++ toString position ++ ")"
  | endOfInput => "Unexpected end of input"

/-- Why a text was not parsed: it is no command, or a row number in it is too long. -/
inductive ParseError where
  | fault (f : Fault)
  | numeral (e : Numeral.TooLong)
deriving DecidableEq, Repr

/-! ## States -/

/-- The word that a command starts with. -/
inductive Verb where
  | highlight
  | add
deriving DecidableEq, Repr

/-- A place in a command, with what the command has said before it. -/
inductive State where
  | start
  /-- after the verb -/
  | verb (v : Verb)
  /-- after `in` -/
  | within (v : Verb)
  /-- after `table` -/
  | tableWord (v : Verb)
  /-- after the name of the table -/
  | target (v : Verb) (table : String)
  /-- where a row number must follow -/
  | rowNumber (table : String) (rows : List Int)
  /-- after a row number, which may be the last -/
  | rowList (table : String) (rows : List Int) (digits : String)
  /-- after `column` -/
  | columnWord (v : Verb) (table : String)
  /-- after the name of a column to highlight -/
  | highlightColumn (table column : String)
  /-- after `row` behind a column -/
  | cellRow (table column : String)
  /-- after the row number of a cell -/
  | cell (table column : String) (row : Int)
  /-- after the name of a new column -/
  | addColumn (table column : String)
  /-- after `cells` -/
  | cellsWord (table column : String)
  /-- in the list of cells, with the entry just closed and whether a comma may follow it -/
  | seeds (table column : String) (done : List CellSeed) (last : Option (String × String))
      (comma : Bool)
  /-- after the brace of an entry -/
  | seedOpen (table column : String) (done : List CellSeed)
  /-- after the row number of an entry -/
  | seedRow (table column : String) (done : List CellSeed) (digits : String)
  /-- after the dash of an entry -/
  | seedDash (table column : String) (done : List CellSeed) (digits : String)
  /-- after the value of an entry -/
  | seedValue (table column : String) (done : List CellSeed) (digits value : String)
  /-- after the list of cells -/
  | seedsEnd (table column : String) (done : List CellSeed)
  /-- after `row` of a new row -/
  | addRow (table : String)
  /-- in the list of values, and whether a comma may follow -/
  | entries (table : String) (done : List RowEntry) (comma : Bool)
  /-- after the brace of an entry -/
  | entryOpen (table : String) (done : List RowEntry)
  /-- after a literal that is a value or names a column -/
  | entryString (table : String) (done : List RowEntry) (text : String)
  /-- after the dash behind the name of a column -/
  | entryDash (table : String) (done : List RowEntry) (column : String)
  /-- after the value of an entry -/
  | entryValue (table : String) (done : List RowEntry) (column : Option String) (value : String)
  /-- after the list of values -/
  | entriesEnd (table : String) (done : List RowEntry)
deriving DecidableEq, Repr

/-- Whether a token of the kind can be a value. -/
def TokenKind.isValue : TokenKind → Bool
  | string | integer | identifier | keyword _ => true
  | _ => false

/-- The row number that digits stand for. -/
def rowNumber (digits : String) : Except ParseError Int :=
  match Text.Numeral.read digits.toList with
  | .ok n => .ok n
  | .error e => .error (.numeral e)

/-- The cells of a list once its last entry is known to be one of them. -/
def settle (done : List CellSeed) : Option (String × String) → Except ParseError (List CellSeed)
  | none => .ok done
  | some (digits, value) => do
    let row ← rowNumber digits
    .ok (done ++ [{ row, value }])

namespace State

/-- The fault of a token that does not fit. -/
def reject (t : Token) : Except ParseError State :=
  .error (.fault (.unexpected t.text t.position))

/-- The state after a token. -/
def next : State → Token → Except ParseError State
  | start, t =>
    match t.kind with
    | .keyword .highlight => .ok (verb .highlight)
    | .keyword .add => .ok (verb .add)
    | _ => reject t
  | verb v, t =>
    match t.kind with
    | .keyword .within => .ok (within v)
    | _ => reject t
  | within v, t =>
    match t.kind with
    | .keyword .table => .ok (tableWord v)
    | _ => reject t
  | tableWord v, t =>
    match t.kind with
    | .string => .ok (target v t.text)
    | _ => reject t
  | target v table, t =>
    match t.kind, v with
    | .keyword .row, .highlight => .ok (rowNumber table [])
    | .keyword .row, .add => .ok (addRow table)
    | .keyword .column, _ => .ok (columnWord v table)
    | _, _ => reject t
  | rowNumber table rows, t =>
    match t.kind with
    | .integer => .ok (rowList table rows t.text)
    | _ => reject t
  | rowList table rows digits, t =>
    match t.kind with
    | .comma => do
      let row ← Script.rowNumber digits
      .ok (rowNumber table (rows ++ [row]))
    | _ => reject t
  | columnWord v table, t =>
    match t.kind, v with
    | .string, .highlight => .ok (highlightColumn table t.text)
    | .string, .add => .ok (addColumn table t.text)
    | _, _ => reject t
  | highlightColumn table column, t =>
    match t.kind with
    | .keyword .row => .ok (cellRow table column)
    | _ => reject t
  | cellRow table column, t =>
    match t.kind with
    | .integer => do
      let row ← Script.rowNumber t.text
      .ok (cell table column row)
    | _ => reject t
  | cell .., t => reject t
  | addColumn table column, t =>
    match t.kind with
    | .keyword .cells => .ok (cellsWord table column)
    | _ => reject t
  | cellsWord table column, t =>
    match t.kind with
    | .leftBracket => .ok (seeds table column [] none false)
    | _ => reject t
  | seeds table column done last comma, t =>
    match t.kind, comma with
    | .comma, true => .ok (seeds table column done last false)
    | .leftBrace, _ => do
      let done ← settle done last
      .ok (seedOpen table column done)
    | .rightBracket, _ => do
      let done ← settle done last
      .ok (seedsEnd table column done)
    | _, _ => reject t
  | seedOpen table column done, t =>
    match t.kind with
    | .integer => .ok (seedRow table column done t.text)
    | _ => reject t
  | seedRow table column done digits, t =>
    match t.kind with
    | .dash => .ok (seedDash table column done digits)
    | _ => reject t
  | seedDash table column done digits, t =>
    if t.kind.isValue then .ok (seedValue table column done digits t.text) else reject t
  | seedValue table column done digits value, t =>
    match t.kind with
    | .rightBrace => .ok (seeds table column done (some (digits, value)) true)
    | _ => reject t
  | seedsEnd .., t => reject t
  | addRow table, t =>
    match t.kind with
    | .leftBracket => .ok (entries table [] false)
    | _ => reject t
  | entries table done comma, t =>
    match t.kind, comma with
    | .comma, true => .ok (entries table done false)
    | .leftBrace, _ => .ok (entryOpen table done)
    | .rightBracket, _ => .ok (entriesEnd table done)
    | _, _ => reject t
  | entryOpen table done, t =>
    match t.kind with
    | .rightBrace => .ok (entries table (done ++ [{ value := "", column := none }]) true)
    | .string => .ok (entryString table done t.text)
    | kind => if kind.isValue then .ok (entryValue table done none t.text) else reject t
  | entryString table done text, t =>
    match t.kind with
    | .rightBrace => .ok (entries table (done ++ [{ value := text, column := none }]) true)
    | .dash => .ok (entryDash table done text)
    | _ => reject t
  | entryDash table done column, t =>
    if t.kind.isValue then .ok (entryValue table done (some column) t.text) else reject t
  | entryValue table done column value, t =>
    match t.kind with
    | .rightBrace => .ok (entries table (done ++ [{ value, column }]) true)
    | _ => reject t
  | entriesEnd .., t => reject t

/-- Where a token leads, its kind decides; its text and its position only come along. -/
theorem next_of_kind (s : State) {t : Token} {k : TokenKind} (h : t.kind = k) :
    s.next t = s.next { t with kind := k } := by
  obtain ⟨kind, text, position, line⟩ := t
  cases h
  rfl

/-! The tokens with which a row number is certain, so that it is read. -/

theorem next_rowList {c : Token} (h : c.kind = .comma) (table : String) (rows : List Int)
    (digits : String) :
    (rowList table rows digits).next c =
      (Script.rowNumber digits >>= fun row => .ok (rowNumber table (rows ++ [row]))) :=
  next_of_kind _ h

theorem next_cellRow {n : Token} (h : n.kind = .integer) (table column : String) :
    (cellRow table column).next n =
      (Script.rowNumber n.text >>= fun row => .ok (cell table column row)) :=
  next_of_kind _ h

theorem next_seeds_open {b : Token} (h : b.kind = .leftBrace) (table column : String)
    (done : List CellSeed) (last : Option (String × String)) (comma : Bool) :
    (seeds table column done last comma).next b =
      (settle done last >>= fun done => .ok (seedOpen table column done)) :=
  next_of_kind _ h

theorem next_seeds_close {b : Token} (h : b.kind = .rightBracket) (table column : String)
    (done : List CellSeed) (last : Option (String × String)) (comma : Bool) :
    (seeds table column done last comma).next b =
      (settle done last >>= fun done => .ok (seedsEnd table column done)) :=
  next_of_kind _ h

/-- The command of a state in which the text may end. -/
def finish : State → Except ParseError Command
  | rowList table rows digits => do
    let row ← Script.rowNumber digits
    .ok ⟨table, .highlightRows (rows ++ [row])⟩
  | highlightColumn table column => .ok ⟨table, .highlightColumn column none⟩
  | cell table column row => .ok ⟨table, .highlightColumn column (some row)⟩
  | addColumn table column => .ok ⟨table, .addColumn column none⟩
  | seedsEnd table column done => .ok ⟨table, .addColumn column (some done)⟩
  | addRow table => .ok ⟨table, .addRow []⟩
  | entriesEnd table done => .ok ⟨table, .addRow done⟩
  | _ => .error (.fault .endOfInput)

/-- The state after a list of tokens. -/
def run : State → List Token → Except ParseError State
  | s, [] => .ok s
  | s, t :: rest => do
    let s ← s.next t
    s.run rest

@[simp]
theorem run_nil (s : State) : s.run [] = .ok s := rfl

theorem run_cons_of_ok {s u : State} {t : Token} (h : s.next t = .ok u) (rest : List Token) :
    s.run (t :: rest) = u.run rest := by
  simp only [run, h]
  rfl

theorem run_cons_of_error {s : State} {t : Token} {e : ParseError} (h : s.next t = .error e)
    (rest : List Token) : s.run (t :: rest) = .error e := by
  simp only [run, h]
  rfl

theorem run_append_of_ok {s u : State} {ts : List Token} (h : s.run ts = .ok u)
    (rest : List Token) : s.run (ts ++ rest) = u.run rest := by
  induction ts generalizing s with
  | nil =>
    cases h
    rfl
  | cons t ts ih =>
    cases hn : s.next t with
    | error e =>
      rw [run_cons_of_error hn] at h
      cases h
    | ok s₁ =>
      rw [run_cons_of_ok hn] at h
      rw [List.cons_append, run_cons_of_ok hn]
      exact ih h

end State

/-- Reads a scanned text. The tokens come first, then a character that starts none, then the end. -/
def Command.ofScan (s : Scan) : Except ParseError Command := do
  let state ← State.start.run s.tokens
  match s.illegal with
  | some i => .error (.fault (.illegal i.char i.position))
  | none => state.finish

/-- Parses the text of one command. -/
def parse (text : List Char) : Except ParseError Command :=
  Command.ofScan (scan text)

end Storyboard.Script
