-- SUMMARY: Writing JSON in plain ASCII, on one line or indented.
import Storyboard.Json.Value

/-!
# Writing JSON

Strings are written in ASCII: what is not printable ASCII becomes an escape of
one or two 16-bit units. With an indent every item stands on a line of its own;
without one the whole value stands on one line.
-/

namespace Storyboard.Json

/-! ## Strings -/

/-- The escape of one 16-bit unit. -/
def escapeUnit (n : Nat) : List Char :=
  '\\' :: 'u' :: Text.hex 4 n

/-- A character as it is written inside a string. -/
def escapeChar (c : Char) : List Char :=
  let n := c.toNat
  if c = '"' then ['\\', '"']
  else if c = '\\' then ['\\', '\\']
  else if c = '\n' then ['\\', 'n']
  else if c = '\r' then ['\\', 'r']
  else if c = '\t' then ['\\', 't']
  else if n = 0x0C then ['\\', 'f']
  else if n = 0x08 then ['\\', 'b']
  else if 0x20 ≤ n && n ≤ 0x7E then [c]
  else if n ≤ 0xFFFF then escapeUnit n
  else
    escapeUnit (0xD800 + (n - 0x10000) / 0x400) ++ escapeUnit (0xDC00 + (n - 0x10000) % 0x400)

/-- A code point as it is written inside a string. -/
def escape : CodePoint → List Char
  | .char c => escapeChar c
  | .half n => escapeUnit (CodePoint.half n).toNat

/-- A string as it is written. -/
def writeString (s : CodePoints) : List Char :=
  '"' :: s.flatMap escape ++ ['"']

/-! ## Values -/

/-- Floating point values are laid out as in plain text; those that are no numbers have names. -/
def floatLayout : Decimal.Layout :=
  { Decimal.plainLayout with nan := "NaN", infinity := "Infinity" }

/-- The line break before an item that stands `level` deep; none where all is on one line. -/
def lineBreak (indent : Option Nat) (level : Nat) : List Char :=
  match indent with
  | none => []
  | some n => '\n' :: List.replicate (n * level) ' '

/-- What stands between two items that are `level` deep. -/
def itemSeparator (indent : Option Nat) (level : Nat) : List Char :=
  match indent with
  | none => [',', ' ']
  | some _ => ',' :: lineBreak indent level

mutual

/-- A value that stands `level` deep. -/
def writeAt (indent : Option Nat) (level : Nat) : Value → List Char
  | .null => "null".toList
  | .bool b => if b then "true".toList else "false".toList
  | .integer n => (toString n).toList
  | .float x => (x.write floatLayout).toList
  | .string s => writeString s
  | .array [] => ['[', ']']
  | .array (item :: rest) =>
    '[' :: lineBreak indent (level + 1) ++ writeAt indent (level + 1) item
      ++ writeItems indent (level + 1) rest ++ lineBreak indent level ++ [']']
  | .object [] => ['{', '}']
  | .object ((key, value) :: rest) =>
    '{' :: lineBreak indent (level + 1) ++ writeString key ++ ':' :: ' '
      :: writeAt indent (level + 1) value ++ writeMembers indent (level + 1) rest
      ++ lineBreak indent level ++ ['}']

/-- The items after the first, each with the separator before it. -/
def writeItems (indent : Option Nat) (level : Nat) : List Value → List Char
  | [] => []
  | item :: rest =>
    itemSeparator indent level ++ writeAt indent level item ++ writeItems indent level rest

/-- The members after the first, each with the separator before it. -/
def writeMembers (indent : Option Nat) (level : Nat) : List (CodePoints × Value) → List Char
  | [] => []
  | (key, value) :: rest =>
    itemSeparator indent level ++ writeString key ++ ':' :: ' ' :: writeAt indent level value
      ++ writeMembers indent level rest

end

/-- The value as a text: on one line without an indent, else with that many spaces a level. -/
def Value.write (indent : Option Nat) (v : Value) : String :=
  String.ofList (writeAt indent 0 v)

end Storyboard.Json
