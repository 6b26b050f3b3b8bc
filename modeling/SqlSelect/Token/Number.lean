/-
Number literals.

A `Numeral` is the longest text at some place that has the shape of a
number: digits, a point with more digits, an exponent. It keeps every
character, so that it spells itself back. What it stands for is a whole
number where it is digits only, and otherwise the nearest double.
-/
import SqlSelect.Text.Alphabetic
import SqlSelect.Text.Numeric
import SqlSelect.Text.Ranges
import SqlSelect.Token.Lexeme

namespace SqlSelect

open Text (isDigit)

/-- The number that decimal digits spell. -/
def digitsValue (digits : List Char) : Nat :=
  digits.foldl (fun n d => 10 * n + (d.toNat - '0'.toNat)) 0

/-- An exponent as it is written. Its digits may be missing. -/
structure Exponent where
  /-- The letter that marks it. -/
  mark : Char
  /-- The sign, of which there is at most one. -/
  sign : List Char
  digits : List Char
  deriving DecidableEq

namespace Exponent

/-- The characters of an exponent. -/
def text (e : Exponent) : List Char := e.mark :: (e.sign ++ e.digits)

/-- The power of ten that an exponent names. -/
def power (e : Exponent) : Int :=
  if e.sign = ['-'] then -(digitsValue e.digits : Int) else digitsValue e.digits

/-- The sign at the start of a text. -/
def signOf : List Char → List Char
  | '+' :: _ => ['+']
  | '-' :: _ => ['-']
  | _ => []

/-- A sign that is read stands at the start of the text. -/
theorem signOf_starts (cs : List Char) : signOf cs <+: cs := by
  unfold signOf
  split
  · exact ⟨_, rfl⟩
  · exact ⟨_, rfl⟩
  · exact List.nil_prefix

/-- Reads an exponent, if one is marked at the start of a text. -/
def read? : List Char → Option Exponent
  | mark :: later =>
    if mark = 'e' ∨ mark = 'E' then
      let sign := signOf later
      some ⟨mark, sign, (later.drop sign.length).takeWhile isDigit⟩
    else none
  | [] => none

/-- An exponent that is read spells the start of the text. -/
theorem text_starts_of_read? {cs : List Char} {e : Exponent} (h : read? cs = some e) :
    e.text <+: cs := by
  cases cs with
  | nil => simp [read?] at h
  | cons mark later =>
    simp only [read?] at h
    split at h
    · obtain rfl := Option.some.inj h
      have sign := List.prefix_iff_eq_append.1 (signOf_starts later)
      have digits := List.takeWhile_prefix isDigit (l := later.drop (signOf later).length)
      obtain ⟨rest, hrest⟩ := digits
      refine ⟨rest, ?_⟩
      simp only [text, List.cons_append, List.append_assoc]
      rw [hrest, sign]
    · cases h

end Exponent

/-- A number as it is written. -/
structure Numeral where
  whole : List Char
  /-- The digits behind the point, if there is a point. -/
  fraction : Option (List Char)
  exponent : Option Exponent
  deriving DecidableEq

namespace Numeral

/-- The digits behind a point at the start of a text. -/
def readFraction? : List Char → Option (List Char)
  | '.' :: later => some (later.takeWhile isDigit)
  | _ => none

/-- The characters of a point and the digits behind it. -/
def fractionText : Option (List Char) → List Char
  | some digits => '.' :: digits
  | none => []

/-- The characters of a numeral. -/
def text (n : Numeral) : List Char :=
  n.whole ++ fractionText n.fraction ++ (n.exponent.map Exponent.text).getD []

/-- Reads the longest numeral at the start of a text. -/
def read (cs : List Char) : Numeral :=
  let whole := cs.takeWhile isDigit
  let behindWhole := cs.drop whole.length
  let fraction := readFraction? behindWhole
  ⟨whole, fraction, Exponent.read? (behindWhole.drop (fractionText fraction).length)⟩

/-- A fraction that is read stands at the start of the text. -/
theorem fractionText_starts (cs : List Char) : fractionText (readFraction? cs) <+: cs := by
  unfold readFraction?
  split
  · rename_i later
    have digits := List.takeWhile_prefix isDigit (l := later)
    exact (List.prefix_cons_inj '.').2 digits
  · exact List.nil_prefix

/-- A numeral that is read spells the start of the text. -/
theorem text_read_starts (cs : List Char) : (read cs).text <+: cs := by
  have digits := List.takeWhile_prefix isDigit (l := cs)
  have whole := List.prefix_iff_eq_append.1 digits
  have fraction := List.prefix_iff_eq_append.1
    (fractionText_starts (cs.drop (cs.takeWhile isDigit).length))
  generalize hrest : (cs.drop (cs.takeWhile isDigit).length).drop
    (fractionText (readFraction? (cs.drop (cs.takeWhile isDigit).length))).length = rest
    at fraction
  have exponent : ((Exponent.read? rest).map Exponent.text).getD [] <+: rest := by
    cases he : Exponent.read? rest with
    | none => exact List.nil_prefix
    | some e => exact Exponent.text_starts_of_read? he
  obtain ⟨later, hlater⟩ := exponent
  refine ⟨later, ?_⟩
  simp only [text, read, hrest, List.append_assoc]
  rw [hlater, fraction, whole]

/-- Whether the numeral is digits only. -/
def isWhole (n : Numeral) : Bool := n.fraction.isNone && n.exponent.isNone

/-- Whether an exponent is marked that has no digits. -/
def lacksExponent (n : Numeral) : Bool := n.exponent.any fun e => e.digits.isEmpty

/-- The token that a numeral stands for, unless it is out of range: a whole
number must fit 64 bits with a sign, any other must have a finite double
nearest to it. -/
def kind? (n : Numeral) : Option Kind :=
  if n.isWhole then
    let value := digitsValue n.whole
    if value < twoTo 63 then some (.integer (Int64.ofNat value)) else none
  else
    let fraction := n.fraction.getD []
    let power := (n.exponent.map Exponent.power).getD 0
    (Double.ofDecimal? (digitsValue (n.whole ++ fraction)) (power - fraction.length)).map .numeric

/-- Whether a character would run into the number before it. -/
def runsOn (c : Char) : Bool := Text.isAlphabetic c || c == '_'

/-- Whether a character belongs to a word that runs into a number. -/
def runsFurther (c : Char) : Bool := Text.isAlphabetic c || Text.isNumeric c || c == '_'

/-- Reads a number literal. One that lacks the digits of its exponent, runs
into a word or is out of range is a fault, with the text read so far. -/
def scan (cs : List Char) : Lexeme :=
  let n := read cs
  let length := n.text.length
  let rest := cs.drop length
  let refuse (length : Nat) : Lexeme :=
    .fault (.invalidNumber (String.ofList (cs.take length))) length
  if n.lacksExponent then refuse length
  else if rest.head?.any runsOn then refuse (length + (rest.takeWhile runsFurther).length)
  else match n.kind? with
    | some kind => .ok kind length
    | none => refuse length

end Numeral

end SqlSelect
