-- SUMMARY: The shortest decimal that reads back as a given binary value, and its layout.
import Storyboard.Decimal.Binary64

/-!
# Shortest decimals

A binary value is shown by a decimal with as few digits as possible among those
that round to the value, and by the nearest of these. The search tries one digit,
two digits and so on; on each decimal grid only the two neighbours of the value
can qualify. `Layout` holds the decisions on how the digits are laid out.
-/

namespace Storyboard

/-- `0.d₁d₂d₃… * 10 ^ point`, the digits most significant first. -/
structure Decimal where
  digits : List Char
  point : Int
deriving DecidableEq, Repr

namespace Binary64

/-- Compares `a * 10 ^ i` with `n * 2 ^ j`. -/
def compareScaled (a : Nat) (i : Int) (n : Nat) (j : Int) : Ordering :=
  compare (a * power 10 i * power 2 (-j)) (n * power 2 j * power 10 (-i))

/-- Whether `a * 10 ^ i` rounds to `m * 2 ^ e`. The interval of what rounds to a value reaches half
    way to each neighbour, and the neighbour below a power of two is nearer by half; the ends belong
    to the even significand. -/
def readsBack (m : Nat) (e : Int) (a : Nat) (i : Int) : Bool :=
  let narrow := m = leastNormal && minExponent < e
  let low := if narrow then 4 * m - 1 else 4 * m - 2
  let fromLow := compareScaled a i low (e - 2)
  let fromHigh := compareScaled a i (4 * m + 2) (e - 2)
  let ends := m % 2 = 0
  (fromLow == .gt || (ends && fromLow == .eq)) && (fromHigh == .lt || (ends && fromHigh == .eq))

/-- The number of decimal places before the point of a positive value: its decimal order plus one. -/
def decimalPoint (m : Nat) (e : Int) : Int :=
  let num := m * power 2 e
  let den := power 2 (-e)
  if den ≤ num then (Nat.toDigits 10 (num / den)).length
  else
    let d := (Nat.toDigits 10 (den / num)).length
    if num * power 10 (d - 1) = den then 2 - (d : Int) else 1 - (d : Int)

/-- The multiple of `10 ^ i` just below `m * 2 ^ e`, as its factor. -/
def floorAt (m : Nat) (e i : Int) : Nat :=
  (m * power 2 e * power 10 (-i)) / (power 2 (-e) * power 10 i)

/-- The neighbour of `m * 2 ^ e` on the grid of `10 ^ i` that rounds to it; of two the nearer, and
    of two as near the even one. -/
def onGrid? (m : Nat) (e i : Int) : Option Nat :=
  let below := floorAt m e i
  let above := below + 1
  match readsBack m e below i, readsBack m e above i with
  | true, true =>
    match compareScaled (2 * below + 1) i (2 * m) e with
    | .gt => some below
    | .lt => some above
    | .eq => some (if below % 2 = 0 then below else above)
  | true, false => some below
  | false, true => some above
  | false, false => none

/-- Searches the grids of `n`, `n + 1`, … digits, `tries` of them; the finest allowed is the answer
    if no coarser one serves. -/
def searchGrids (m : Nat) (e point : Int) (n : Nat) : Nat → Nat × Int
  | 0 => (floorAt m e (point - n), point - n)
  | tries + 1 =>
    match onGrid? m e (point - n) with
    | some a => (a, point - n)
    | none => searchGrids m e point (n + 1) tries

/-- The shortest decimal that rounds to the positive value `m * 2 ^ e`, without trailing zeros. -/
def shortest (m : Nat) (e : Int) : Decimal :=
  let (a, i) := searchGrids m e (decimalPoint m e) 1 17
  let digits := Nat.toDigits 10 a
  { digits := (digits.reverse.dropWhile (· == '0')).reverse
    point := digits.length + i }

end Binary64

/-! ## Layout -/

/-- How a decimal is laid out. -/
structure Decimal.Layout where
  /-- From this decimal point on an exponent is written. -/
  maxPoint : Int
  /-- Up to this decimal point an exponent is written. -/
  minPoint : Int
  /-- The least number of digits of an exponent. -/
  exponentWidth : Nat
  nan : String
  infinity : String

namespace Decimal

/-- An exponent is written below `0.0001` and from `10 ^ 16` on, with its sign and two digits at
    least; a whole number keeps one zero after the point. -/
def plainLayout : Layout where
  maxPoint := 17
  minPoint := -4
  exponentWidth := 2
  nan := "nan"
  infinity := "inf"

/-- The decimal written with an exponent. -/
def writeScientific (layout : Layout) (d : Decimal) : List Char :=
  let exponent := d.point - 1
  let digits := Nat.toDigits 10 exponent.natAbs
  let fraction :=
    match d.digits with
    | [] => ['0']
    | [first] => [first]
    | first :: rest => first :: '.' :: rest
  fraction ++ 'e' :: (if exponent < 0 then '-' else '+')
    :: List.replicate (layout.exponentWidth - digits.length) '0' ++ digits

/-- The decimal written without an exponent. -/
def writePositional (d : Decimal) : List Char :=
  if d.point ≤ 0 then '0' :: '.' :: List.replicate (-d.point).toNat '0' ++ d.digits
  else
    let n := d.point.toNat
    let whole := d.digits.take n ++ List.replicate (n - d.digits.length) '0'
    let fraction := d.digits.drop n
    whole ++ '.' :: (if fraction.isEmpty then ['0'] else fraction)

/-- The decimal in its layout. -/
def write (layout : Layout) (d : Decimal) : List Char :=
  if d.point ≤ layout.minPoint || layout.maxPoint ≤ d.point then writeScientific layout d
  else writePositional d

end Decimal

/-- The value written with the fewest digits that read back. -/
def Binary64.write (layout : Decimal.Layout) : Binary64 → String
  | .nan => layout.nan
  | .infinite negative => (if negative then "-" else "") ++ layout.infinity
  | .finite negative m e =>
    (if negative then "-" else "")
      ++ if m = 0 then "0.0" else String.ofList ((shortest m e).write layout)

end Storyboard
