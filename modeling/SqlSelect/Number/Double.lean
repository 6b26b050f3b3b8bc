/-
Finite binary floating point numbers of 64 bits.

A number is a sign and the other 63 bits of its encoding. Read as a
natural number, those bits are in the order of the magnitudes they stand
for, so the neighbours of a magnitude are the patterns before and after
it. Every magnitude is a whole number of units of two to the power -1074
(`units`), which keeps all arithmetic on natural numbers.
-/
namespace SqlSelect

/-- Two to the power `n`. -/
abbrev twoTo (n : Nat) : Nat := Nat.pow 2 n

/-- Ten to the power `n`. -/
abbrev tenTo (n : Nat) : Nat := Nat.pow 10 n

/-- The first pattern that stands for no finite magnitude. -/
def Double.patternBound : Nat := 2047 * twoTo 52

/-- A finite 64-bit binary floating point number. Zero has two signs. -/
structure Double where
  negative : Bool
  pattern : Nat
  isFinite : pattern < Double.patternBound
  deriving DecidableEq

namespace Double

/-- The magnitude that a pattern stands for, in units of two to the power
-1074: below two to the power 52 the pattern itself, above it a significand
of 53 bits times a power of two. -/
def units (pattern : Nat) : Nat :=
  if pattern < twoTo 52 then pattern
  else (twoTo 52 + pattern % twoTo 52) * twoTo (pattern / twoTo 52 - 1)

/-- The quotient rounded to the nearest whole number, a half to the even
one. -/
def roundHalfEven (num den : Nat) : Nat :=
  let quotient := num / den
  let twice := 2 * (num % den)
  if den < twice ∨ (twice = den ∧ quotient % 2 = 1) then quotient + 1 else quotient

/-- The pattern whose magnitude is nearest to `num / den` units, the even
one of two. The significand keeps 53 bits, and one that rounds up to 54
bits carries into the exponent by itself. -/
def nearestPattern (num den : Nat) : Nat :=
  let shift := (num / den).log2 - 52
  roundHalfEven num (den * twoTo shift) + shift * twoTo 52

/-- The number of decimal digits of a natural number, one for zero. -/
def digitCount (n : Nat) : Nat := (Nat.toDigits 10 n).length

/-- The non-negative number nearest to `digits` times ten to the power
`exponent`, if that is finite. Beyond ten to the power 400 every magnitude
is too large, and below ten to the power -400 every one rounds to zero;
the powers in between are computed. -/
def ofDecimal? (digits : Nat) (exponent : Int) : Option Double :=
  let pattern :=
    if digits = 0 ∨ exponent + digitCount digits < -400 then 0
    else if 400 < exponent then patternBound
    else nearestPattern (digits * tenTo exponent.toNat * twoTo 1074) (tenTo (-exponent).toNat)
  if h : pattern < patternBound then some ⟨false, pattern, h⟩ else none

/-- The number with the other sign. -/
def neg (x : Double) : Double := ⟨!x.negative, x.pattern, x.isFinite⟩

/-- Equality of the numbers meant: the two zeros are the same number. -/
def sameNumber (x y : Double) : Bool :=
  x.pattern == y.pattern && (x.negative == y.negative || x.pattern == 0)

end Double

end SqlSelect
