/-
Sets of characters given by ranges of code points.

A property of characters is a table of disjoint ranges in increasing
order; each property stands in a module of its own and names its table.
The blanks, of which there are few, stand here.
-/
namespace SqlSelect.Text

/-- Membership in a table of disjoint ranges in increasing order. The
search ends at the first range that does not lie below the code point. -/
def inRanges : List (Nat × Nat) → Nat → Bool
  | [], _ => false
  | (first, last) :: later, n =>
    if last < n then inRanges later n else decide (first ≤ n)

/-- Code points with the Unicode property White_Space. -/
def blankRanges : List (Nat × Nat) :=
  [(0x9, 0xD), (0x20, 0x20), (0x85, 0x85), (0xA0, 0xA0), (0x1680, 0x1680), (0x2000, 0x200A),
    (0x2028, 0x2029), (0x202F, 0x202F), (0x205F, 0x205F), (0x3000, 0x3000)]

/-- Whether the character separates tokens and is otherwise ignored. -/
def isBlank (c : Char) : Bool := inRanges blankRanges c.toNat

/-- The ten decimal digits; digits of other scripts are not among them. -/
def isDigit (c : Char) : Bool := decide ('0' ≤ c) && decide (c ≤ '9')

end SqlSelect.Text
