-- SUMMARY: Binary floating point values of 64 bits, and the one nearest to a decimal.

/-!
# Binary64

The values of the 64-bit binary floating point format, held exactly: a sign, a
significand below `2 ^ 53` and an exponent of two. `Binary64.ofDecimal` rounds a
decimal to the nearest of them, a tie to the even significand, and keeps the
exponents that it computes with within bounds.
-/

namespace Storyboard

/-- A value of the format. A finite one is `significand * 2 ^ exponent`, with its sign. -/
inductive Binary64 where
  | nan
  | infinite (negative : Bool)
  | finite (negative : Bool) (significand : Nat) (exponent : Int)
deriving DecidableEq, Repr

namespace Binary64

/-- The exponent of the smallest positive value. -/
def minExponent : Int := -1074

/-- The exponent of the largest finite value. -/
def maxExponent : Int := 971

/-- The least significand of 53 bits, `2 ^ 52`. -/
def leastNormal : Nat := 0x10000000000000

/-- The power of a base at an exponent; one at a negative exponent. -/
def power (base : Nat) (exponent : Int) : Nat :=
  Nat.pow base exponent.toNat

/-- The zero of a sign. -/
def zero (negative : Bool) : Binary64 :=
  .finite negative 0 minExponent

/-- The quotient rounded to the nearest natural number, a tie to the even one. -/
def roundQuotient (num den : Nat) : Nat :=
  let q := num / den
  let r := num % den
  if 2 * r > den || (2 * r = den && q % 2 = 1) then q + 1 else q

/-- `num / den` divided by `2 ^ e`, as a numerator and a denominator. -/
def scaleDown (num den : Nat) (e : Int) : Nat × Nat :=
  (num * power 2 (-e), den * power 2 e)

/-- The exponent at which a positive quotient has a significand of 53 bits, or the least exponent. -/
def exponentFor (num den : Nat) : Int :=
  let guess : Int := (num.log2 : Int) - (den.log2 : Int) - 52
  let (a, b) := scaleDown num den guess
  let e := if a / b < leastNormal then guess - 1 else guess
  max e minExponent

/-- The value nearest to a positive quotient. -/
def ofQuotient (negative : Bool) (num den : Nat) : Binary64 :=
  let e := exponentFor num den
  let (a, b) := scaleDown num den e
  let m := roundQuotient a b
  let (m, e) := if m = 2 * leastNormal then (leastNormal, e + 1) else (m, e)
  if maxExponent < e then .infinite negative else .finite negative m e

/-- The value nearest to `coefficient * 10 ^ exponent`. Beyond the decimal orders that the format
    spans it is infinite or zero, whatever the digits. -/
def ofDecimal (negative : Bool) (coefficient : Nat) (exponent : Int) : Binary64 :=
  let order : Int := (Nat.toDigits 10 coefficient).length + exponent
  if coefficient = 0 || order < -330 then zero negative
  else if 310 < order then .infinite negative
  else ofQuotient negative (coefficient * power 10 exponent) (power 10 (-exponent))

end Binary64

end Storyboard
