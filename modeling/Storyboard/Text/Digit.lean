-- SUMMARY: Decimal digits of every script, numerals written with them, and the longest numeral that is read.
import Storyboard.Text.Blank

/-!
# Digits and numerals

A numeral is a run of decimal digits, of any script and even of several mixed.
`Numeral.read` gives its value and refuses a numeral that is too long, counting
every digit, leading zeros too (`Numeral.read_eq_ok`). `Numeral.readSigned` reads
what stands for a whole number on a command line.
-/

namespace Storyboard.Text

/-! ## Digits -/

/-- The code points of the digits zero; the digits one to nine follow each of them. -/
def digitZeros : List Nat :=
  [0x30, 0x660, 0x6F0, 0x7C0, 0x966, 0x9E6, 0xA66, 0xAE6, 0xB66, 0xBE6, 0xC66, 0xCE6, 0xD66, 0xDE6,
   0xE50, 0xED0, 0xF20, 0x1040, 0x1090, 0x17E0, 0x1810, 0x1946, 0x19D0, 0x1A80, 0x1A90, 0x1B50,
   0x1BB0, 0x1C40, 0x1C50, 0xA620, 0xA8D0, 0xA900, 0xA9D0, 0xA9F0, 0xAA50, 0xABF0, 0xFF10, 0x104A0,
   0x10D30, 0x11066, 0x110F0, 0x11136, 0x111D0, 0x112F0, 0x11450, 0x114D0, 0x11650, 0x116C0,
   0x11730, 0x118E0, 0x11950, 0x11C50, 0x11D50, 0x11DA0, 0x16A60, 0x16AC0, 0x16B50, 0x1D7CE,
   0x1D7D8, 0x1D7E2, 0x1D7EC, 0x1D7F6, 0x1E140, 0x1E2F0, 0x1E950, 0x1FBF0]

/-- The value of a decimal digit, and nothing for any other character. -/
def digitValue? (c : Char) : Option Nat :=
  (digitZeros.find? fun z => z ≤ c.toNat && c.toNat < z + 10).map (c.toNat - ·)

/-- Whether the character is a decimal digit of some script. -/
def isDigit (c : Char) : Bool :=
  (digitValue? c).isSome

theorem digitValue?_lt {c : Char} {n : Nat} (h : digitValue? c = some n) : n < 10 := by
  simp only [digitValue?, Option.map_eq_some_iff] at h
  obtain ⟨z, hz, rfl⟩ := h
  have := List.find?_some hz
  simp only [Bool.and_eq_true, decide_eq_true_eq] at this
  omega

/-! ## Numerals -/

namespace Numeral

/-- The number of digits of the longest numeral that is read. -/
def maxDigits : Nat := 4300

/-- A numeral was refused because it has more than `maxDigits` digits. -/
structure TooLong where
  digits : Nat
deriving DecidableEq, Repr

/-- The wording of the refusal. -/
def TooLong.message (e : TooLong) : String :=
  "Exceeds the limit (" ++ toString maxDigits ++ " digits) for integer string conversion: value has "
    ++ toString e.digits
    ++ " digits; use sys.set_int_max_str_digits() to increase the limit"

/-- The number that the digits stand for, the most significant first. -/
def value (digits : List Char) : Nat :=
  digits.foldl (fun n c => 10 * n + (digitValue? c).getD 0) 0

/-- The number that a run of digits stands for, unless the run is too long. -/
def read (digits : List Char) : Except TooLong Nat :=
  if digits.length ≤ maxDigits then .ok (value digits) else .error ⟨digits.length⟩

theorem read_eq_ok {digits : List Char} {n : Nat} :
    read digits = .ok n ↔ digits.length ≤ maxDigits ∧ value digits = n := by
  simp only [read]
  split
  next h => simp [h]
  next h => simp [h]

/-- Blanks that may stand around a signed numeral. The information separators may not. -/
def isMargin (c : Char) : Bool :=
  isBlank c && !(0x1C ≤ c.toNat && c.toNat ≤ 0x1F)

/-- The digits of a numeral whose digits may be grouped by single underscores between them. -/
def ungroup? : List Char → Option (List Char)
  | [] => none
  | [c] => if isDigit c then some [c] else none
  | c :: d :: rest =>
    if isDigit c then
      if d = '_' then (ungroup? rest).map (c :: ·) else (ungroup? (d :: rest)).map (c :: ·)
    else none

/-- Reads a whole number: margins, one sign at most, and grouped digits, not too many of them. -/
def readSigned (s : List Char) : Option Int :=
  let body := dropRightWhile isMargin (s.dropWhile isMargin)
  let unsigned (digits : List Char) : Option Nat := do
    let digits ← ungroup? digits
    (read digits).toOption
  match body with
  | '-' :: rest => (unsigned rest).map fun n => -(n : Int)
  | '+' :: rest => (unsigned rest).map fun n => (n : Int)
  | rest => (unsigned rest).map fun n => (n : Int)

end Numeral

end Storyboard.Text
