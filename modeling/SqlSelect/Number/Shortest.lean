/-
The shortest decimal that reads back as a given magnitude.

The reals that round to a pattern are those between the midpoints to its
two neighbours, the midpoints included when the pattern is even. For one
digit, two digits and so on, the two decimals of that length around the
magnitude are tried; the first length that has one inside wins, and of
two decimals inside the nearer one.
-/
import SqlSelect.Number.Double

namespace SqlSelect

/-- The number `digits` times ten to the power `exponent`. -/
structure Decimal where
  digits : Nat
  exponent : Int
  deriving DecidableEq

/-- Which of two decimals equally near to a magnitude is written. -/
inductive Tie where
  | up
  | even
  deriving DecidableEq

namespace Double

/-- The exponent of the leading decimal digit of `num / den`. -/
def leadingExponent (num den : Nat) : Int :=
  if den ≤ num then (digitCount (num / den) : Int) - 1
  else
    let places := digitCount (den / num)
    if den ≤ num * tenTo (places - 1) then 1 - (places : Int) else -(places : Int)

/-- The decimal of the grid of ten to the power `exponent` that reads back
as the pattern, if there is one; lengths are measured in halves of a
unit. -/
def onGrid? (tie : Tie) (pattern : Nat) (exponent : Int) : Option Nat :=
  let scale := tenTo (-exponent).toNat
  let point := twoTo 1075 * tenTo exponent.toNat
  let value := 2 * units pattern * scale
  let low := (units (pattern - 1) + units pattern) * scale
  let high := (units pattern + units (pattern + 1)) * scale
  let within (d : Nat) : Bool :=
    let x := d * point
    if pattern % 2 = 0 then decide (low ≤ x) && decide (x ≤ high)
    else decide (low < x) && decide (x < high)
  let floor := value / point
  let below := value - floor * point
  let above := (floor + 1) * point - value
  let preferBelow :=
    decide (below < above) || (decide (below = above) && tie == .even && floor % 2 == 0)
  match within floor, within (floor + 1) with
  | true, true => some (if preferBelow then floor else floor + 1)
  | true, false => some floor
  | false, true => some (floor + 1)
  | false, false => none

/-- Tries `count` more lengths, from the grid of ten to the power
`exponent` to finer ones. Seventeen digits always suffice. -/
def shortestFrom (tie : Tie) (pattern : Nat) : Nat → Int → Decimal
  | 0, exponent => ⟨0, exponent⟩
  | count + 1, exponent =>
    match onGrid? tie pattern exponent with
    | some digits => ⟨digits, exponent⟩
    | none => shortestFrom tie pattern count (exponent - 1)

/-- The shortest decimal for the magnitude of a number other than zero. The
first grid is one place above the leading digit, since the next power of
ten may itself read back. -/
def shortest (tie : Tie) (x : Double) : Decimal :=
  shortestFrom tie x.pattern 18 (leadingExponent (units x.pattern) (twoTo 1074) + 1)

end Double

end SqlSelect
