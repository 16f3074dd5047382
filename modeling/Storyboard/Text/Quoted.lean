-- SUMMARY: Text in quotes, with escapes for what cannot be shown.
import Storyboard.Text.CodePoint
import Storyboard.Text.Printable

/-!
# Quoted text

A text is shown between single quotes, or between double quotes where it holds a
single quote and no double one. The closing quote, the backslash and every
character that cannot be shown are escaped.
-/

namespace Storyboard.Text

/-- The number in lower-case hexadecimal digits, filled up with zeros to a width. -/
def hex (width n : Nat) : List Char :=
  let digits := Nat.toDigits 16 n
  List.replicate (width - digits.length) '0' ++ digits

/-- The quote that encloses the text. -/
def enclosingQuote (s : CodePoints) : Char :=
  if s.contains (.char '\'') && !s.contains (.char '"') then '"' else '\''

/-- A character as it stands between two quotes. -/
def escapeChar (quote c : Char) : List Char :=
  if c = quote || c = '\\' then ['\\', c]
  else if c = '\t' then ['\\', 't']
  else if c = '\n' then ['\\', 'n']
  else if c = '\r' then ['\\', 'r']
  else if isPrintable c then [c]
  else if c.toNat ≤ 0xFF then '\\' :: 'x' :: hex 2 c.toNat
  else if c.toNat ≤ 0xFFFF then '\\' :: 'u' :: hex 4 c.toNat
  else '\\' :: 'U' :: hex 8 c.toNat

/-- A code point as it stands between two quotes. -/
def escapeIn (quote : Char) : CodePoint → List Char
  | .char c => escapeChar quote c
  | .half n => '\\' :: 'u' :: hex 4 (CodePoint.half n).toNat

/-- The text between quotes. -/
def quoted (s : CodePoints) : String :=
  let quote := enclosingQuote s
  String.ofList (quote :: s.flatMap (escapeIn quote) ++ [quote])

end Storyboard.Text
