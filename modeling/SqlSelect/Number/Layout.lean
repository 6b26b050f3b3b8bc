/-
Numbers as text.

`Double.text` writes the shortest decimal of a number in a given layout; a
layout says for which sizes the digits are written out in full and how an
exponent looks. Each kind of output names its own layout.
-/
import SqlSelect.Number.Shortest

namespace SqlSelect

/-- How the digits of a number are set out. -/
structure Layout where
  /-- The exponents of the leading digit for which the number is written
  out in full; without bounds it always is. -/
  full : Option (Int × Int)
  /-- Whether a whole number that is written out ends in `.0`. -/
  point : Bool
  /-- Whether an exponent that is not negative has a plus sign. -/
  plus : Bool
  /-- Which of two shortest decimals is taken. -/
  tie : Tie

namespace Layout

/-- Numbers in running text: always in full, without an empty fraction. -/
def plain : Layout := ⟨none, false, false, .up⟩

/-- Numbers in JSON: in full from `0.00001` up to sixteen whole digits. -/
def json : Layout := ⟨some (-5, 15), true, true, .even⟩

/-- Numbers in an outline: in full from `0.0001` up to sixteen whole
digits. -/
def outline : Layout := ⟨some (-4, 15), true, false, .up⟩

/-- Whether a number with this leading exponent is written out in full. -/
def isFull (layout : Layout) (leading : Int) : Bool :=
  match layout.full with
  | none => true
  | some (least, greatest) => decide (least ≤ leading) && decide (leading ≤ greatest)

end Layout

/-- The decimal digits of a natural number. -/
def digitChars (n : Nat) : List Char := Nat.toDigits 10 n

namespace Decimal

/-- The digits written out in full. -/
def full (d : Decimal) (point : Bool) : List Char :=
  let digits := digitChars d.digits
  if 0 ≤ d.exponent then
    digits ++ List.replicate d.exponent.toNat '0' ++ (if point then ['.', '0'] else [])
  else
    let places := (-d.exponent).toNat
    if places < digits.length then
      digits.take (digits.length - places) ++ '.' :: digits.drop (digits.length - places)
    else '0' :: '.' :: (List.replicate (places - digits.length) '0' ++ digits)

/-- The digits with the point after the first and an exponent. -/
def scientific (d : Decimal) (plus : Bool) : List Char :=
  let digits := digitChars d.digits
  let leading := d.exponent + digits.length - 1
  let sign := if leading < 0 then ['-'] else if plus then ['+'] else []
  digits.take 1 ++ (if digits.length ≤ 1 then [] else '.' :: digits.drop 1)
    ++ 'e' :: (sign ++ digitChars leading.natAbs)

end Decimal

namespace Double

/-- The text of a number without its sign. -/
def magnitudeText (layout : Layout) (x : Double) : List Char :=
  if x.pattern = 0 then '0' :: (if layout.point then ['.', '0'] else [])
  else
    let d := x.shortest layout.tie
    let leading := d.exponent + (digitChars d.digits).length - 1
    if layout.isFull leading then d.full layout.point else d.scientific layout.plus

/-- The text of a number. -/
def text (layout : Layout) (x : Double) : String :=
  String.ofList ((if x.negative then ['-'] else []) ++ x.magnitudeText layout)

end Double

end SqlSelect
