-- SUMMARY: Reading JSON, with the place of the first fault.
import Storyboard.Json.Value
import Storyboard.Text.Digit

/-!
# Reading JSON

`Value.read` reads a whole text as one JSON value. It also takes the names of the
floating point values that are no numbers; of two members with one key the last
value counts, at the place of the first. Faults are found from left to right, and
each is noticed at one point of the text: a reading function returns the text that
begins there, from which the place follows.
-/

namespace Storyboard.Json

/-! ## Faults -/

/-- What is wrong with a text that is not JSON. -/
inductive Problem where
  | byteOrderMark
  | value
  | name
  | colon
  | comma
  | afterEnd
  | unterminated
  | control
  | escape
  | unicodeEscape
deriving DecidableEq, Repr

/-- The wording of a problem. -/
def Problem.message : Problem → String
  | byteOrderMark => "Unexpected UTF-8 BOM (decode using utf-8-sig)"
  | value => "Expecting value"
  | name => "Expecting property name enclosed in double quotes"
  | colon => "Expecting ':' delimiter"
  | comma => "Expecting ',' delimiter"
  | afterEnd => "Extra data"
  | unterminated => "Unterminated string starting at"
  | control => "Invalid control character at"
  | escape => "Invalid \\escape"
  | unicodeEscape => "Invalid \\uXXXX escape"

/-- Why reading stopped: a problem with the text, noticed where `rest` begins, or a numeral that is
    too long. -/
inductive Stop where
  | problem (p : Problem) (rest : List Char)
  | numeral (e : Text.Numeral.TooLong)

/-- A place in a text: the number of characters before it, its line and its column, both from 1. -/
structure Place where
  index : Nat
  line : Nat
  column : Nat
deriving DecidableEq, Repr

/-- The place after the given text. -/
def Place.after (before : List Char) : Place where
  index := before.length
  line := before.count '\n' + 1
  column := (before.reverse.takeWhile (· ≠ '\n')).length + 1

/-- Why a text was not read. -/
inductive ReadError where
  | malformed (p : Problem) (place : Place)
  | numeral (e : Text.Numeral.TooLong)
deriving DecidableEq, Repr

/-- The wording of an error: a problem is followed by its place. -/
def ReadError.message : ReadError → String
  | malformed p place =>
    p.message ++ ": line " ++ toString place.line ++ " column " ++ toString place.column
      ++ " (char " ++ toString place.index ++ ")"
  | numeral e => e.message

/-- The error of a text whose reading stopped. -/
def Stop.toError (text : List Char) : Stop → ReadError
  | problem p rest => .malformed p (.after (text.take (text.length - rest.length)))
  | numeral e => .numeral e

/-! ## Blanks and strings -/

/-- Whether JSON takes the character for a blank. -/
def isBlank (c : Char) : Bool :=
  c = ' ' || c = '\t' || c = '\n' || c = '\r'

/-- The text from its first character that is not blank. -/
def skipBlanks (s : List Char) : List Char :=
  s.dropWhile isBlank

/-- The value of a hexadecimal digit. -/
def hexValue? (c : Char) : Option Nat :=
  if '0' ≤ c ∧ c ≤ '9' then some (c.toNat - '0'.toNat)
  else if 'a' ≤ c ∧ c ≤ 'f' then some (c.toNat - 'a'.toNat + 10)
  else if 'A' ≤ c ∧ c ≤ 'F' then some (c.toNat - 'A'.toNat + 10)
  else none

/-- The 16-bit unit that four hexadecimal digits stand for. -/
def unitValue? (a b c d : Char) : Option Nat := do
  let a ← hexValue? a
  let b ← hexValue? b
  let c ← hexValue? c
  let d ← hexValue? d
  some (((a * 16 + b) * 16 + c) * 16 + d)

/-- The character that a short escape stands for. -/
def shortEscape? (c : Char) : Option Char :=
  if c = '"' ∨ c = '\\' ∨ c = '/' then some c
  else if c = 'n' then some '\n'
  else if c = 't' then some '\t'
  else if c = 'r' then some '\r'
  else if c = 'b' then some '\x08'
  else if c = 'f' then some '\x0c'
  else none

/-- Reads what follows an opening quote, up to the closing one. An escape of a unit must have a
    character after it. `opening` is the text from the opening quote. -/
def readPoints (opening : List Char) : List Char → Except Stop (CodePoints × List Char)
  | [] => .error (.problem .unterminated opening)
  | '"' :: rest => .ok ([], rest)
  | '\\' :: [] => .error (.problem .unterminated opening)
  | '\\' :: 'u' :: a :: b :: c :: d :: rest =>
    match unitValue? a b c d, rest.isEmpty with
    | some n, false => do
      let (points, rest) ← readPoints opening rest
      .ok (.ofUnit n :: points, rest)
    | _, _ => .error (.problem .unicodeEscape ('u' :: a :: b :: c :: d :: rest))
  | '\\' :: 'u' :: rest => .error (.problem .unicodeEscape ('u' :: rest))
  | '\\' :: e :: rest =>
    match shortEscape? e with
    | some c => do
      let (points, rest) ← readPoints opening rest
      .ok (.char c :: points, rest)
    | none => .error (.problem .escape ('\\' :: e :: rest))
  | c :: rest =>
    if c.toNat < 0x20 then .error (.problem .control (c :: rest))
    else do
      let (points, rest) ← readPoints opening rest
      .ok (.char c :: points, rest)

/-- Reads a string from after its opening quote. A high and a low surrogate that follow one another
    are one character. -/
def readString (rest : List Char) : Except Stop (CodePoints × List Char) := do
  let (points, rest) ← readPoints ('"' :: rest) rest
  .ok (points.joinPairs, rest)

/-! ## Numbers -/

/-- Takes a point and the digits after it, if there is one. -/
def takeFraction : List Char → List Char × List Char
  | '.' :: rest =>
    if (rest.takeWhile Char.isDigit).isEmpty then ([], '.' :: rest)
    else (rest.takeWhile Char.isDigit, rest.dropWhile Char.isDigit)
  | rest => ([], rest)

/-- Takes the sign of an exponent: whether it is negative. -/
def takeSign : List Char → Bool × List Char
  | '-' :: rest => (true, rest)
  | '+' :: rest => (false, rest)
  | rest => (false, rest)

/-- Takes an exponent, if there is one. -/
def takeExponent? : List Char → Option (Int × List Char)
  | e :: rest =>
    if e = 'e' ∨ e = 'E' then
      let (negative, body) := takeSign rest
      let digits := body.takeWhile Char.isDigit
      let n : Int := Text.Numeral.value digits
      if digits.isEmpty then none
      else some (if negative then -n else n, body.dropWhile Char.isDigit)
    else none
  | [] => none

/-- Takes the whole part of a number: a single zero, or digits of which the first is no zero. -/
def takeWhole? : List Char → Option (List Char × List Char)
  | [] => none
  | c :: rest =>
    if c = '0' then some (['0'], rest)
    else if c.isDigit then some (c :: rest.takeWhile Char.isDigit, rest.dropWhile Char.isDigit)
    else none

/-- Reads a number after its sign. Without fraction and exponent it is whole. -/
def readUnsigned (negative : Bool) (start body : List Char) :
    Except Stop (Value × List Char) :=
  match takeWhole? body with
  | none => .error (.problem .value start)
  | some (whole, rest) =>
    let (fraction, rest) := takeFraction rest
    match takeExponent? rest, fraction.isEmpty with
    | none, true =>
      match Text.Numeral.read whole with
      | .ok n => .ok (.integer (if negative then -(n : Int) else n), rest)
      | .error e => .error (.numeral e)
    | exponent, _ =>
      let (e, rest) := exponent.getD (0, rest)
      let coefficient := Text.Numeral.value (whole ++ fraction)
      .ok (.float (.ofDecimal negative coefficient (e - fraction.length)), rest)

/-- Reads a number. -/
def readNumber : List Char → Except Stop (Value × List Char)
  | '-' :: rest => readUnsigned true ('-' :: rest) rest
  | s => readUnsigned false s s

/-! ## Values -/

/-- The values that are written as a name. -/
def names : List (String × Value) :=
  [("null", .null), ("true", .bool true), ("false", .bool false), ("NaN", .float .nan),
   ("Infinity", .float (.infinite false)), ("-Infinity", .float (.infinite true))]

/-- Reads a value that is written as a name. -/
def readName? (s : List Char) : Option (Value × List Char) :=
  names.findSome? fun (name, value) => (Text.dropStart? name.toList s).map (value, ·)

mutual

/-- Reads a value. Each level and each item uses up one unit of fuel. -/
def readValue : Nat → List Char → Except Stop (Value × List Char)
  | 0, s => .error (.problem .value s)
  | _ + 1, '"' :: rest => do
    let (s, rest) ← readString rest
    .ok (.string s, rest)
  | fuel + 1, '{' :: rest =>
    match skipBlanks rest with
    | '}' :: rest => .ok (.object [], rest)
    | rest => do
      let (members, rest) ← readMembers fuel rest
      .ok (.object (OrderedMap.ofList members), rest)
  | fuel + 1, '[' :: rest =>
    match skipBlanks rest with
    | ']' :: rest => .ok (.array [], rest)
    | rest => do
      let (items, rest) ← readItems fuel rest
      .ok (.array items, rest)
  | _ + 1, s =>
    match readName? s with
    | some result => .ok result
    | none => readNumber s

/-- Reads the items of an array from its first item to its closing bracket. -/
def readItems : Nat → List Char → Except Stop (List Value × List Char)
  | 0, s => .error (.problem .value s)
  | fuel + 1, s => do
    let (item, rest) ← readValue fuel s
    match skipBlanks rest with
    | ']' :: rest => .ok ([item], rest)
    | ',' :: rest =>
      let (items, rest) ← readItems fuel (skipBlanks rest)
      .ok (item :: items, rest)
    | rest => .error (.problem .comma rest)

/-- Reads the members of an object from its first key to its closing brace. -/
def readMembers : Nat → List Char → Except Stop (List (CodePoints × Value) × List Char)
  | 0, s => .error (.problem .name s)
  | fuel + 1, '"' :: rest => do
    let (key, rest) ← readString rest
    match skipBlanks rest with
    | ':' :: rest =>
      let (value, rest) ← readValue fuel (skipBlanks rest)
      match skipBlanks rest with
      | '}' :: rest => .ok ([(key, value)], rest)
      | ',' :: rest =>
        let (members, rest) ← readMembers fuel (skipBlanks rest)
        .ok ((key, value) :: members, rest)
      | rest => .error (.problem .comma rest)
    | rest => .error (.problem .colon rest)
  | _ + 1, s => .error (.problem .name s)

end

/-- Fuel enough for a text: every level and every item uses up a character of it. -/
def fuelFor (s : List Char) : Nat :=
  2 * s.length + 2

/-- Reads a text that holds one value and blanks around it, or says why reading stopped. -/
def readAll (text : List Char) : Except Stop Value :=
  if text.head? = some '\uFEFF' then .error (.problem .byteOrderMark text)
  else do
    let (value, rest) ← readValue (fuelFor text) (skipBlanks text)
    match skipBlanks rest with
    | [] => .ok value
    | rest => .error (.problem .afterEnd rest)

/-- Reads a text that holds one value and blanks around it. -/
def Value.read (text : List Char) : Except ReadError Value :=
  (readAll text).mapError (·.toError text)

end Storyboard.Json
