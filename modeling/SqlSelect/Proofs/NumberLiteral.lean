/-
How far a number goes and what it is.

The scanner reads a number in three runs, one behind the other. What they
come to is the longest number without an exponent that the text starts with,
and behind it the longest exponent. `Reading` states this by the shapes of
the two alone, with the value that the digits spell and with the faults: an
exponent that is marked and has no digits, a letter that follows, a whole
number beyond 63 bits, and a decimal that no finite double is nearest to.
Every text that starts with a number has exactly one reading, and it is what
the next step finds.

# Longest starts

`Longest Shape a cs` says that `a` starts `cs`, has the shape and is no
shorter than any other such start, so there is one at most
(`Longest.unique`). The shapes are told without the scanner: a mantissa is
digits with a point among them, an exponent is a mark and digits.

# What is read

The runs of the scanner are compared with the shapes one at a time, first the
mantissa (`Numeral.longest_mantissa`) and behind it the exponent
(`Numeral.longest_exponent`). The value needs the digits alone, so it is the
same whether it is taken from the runs or from the shapes (`shaped_read`).

# One reading

A text has a reading (`exists_reading`) and the scanner finds what any reading
says (`Reading.scan`); since the longest starts are unique, so is the reading.
-/
import SqlSelect.Proofs.Layout.Pieces
import SqlSelect.Proofs.Overflow

namespace SqlSelect

open Text (isDigit byteLength)

-- ====================================================== longest starts

/-- The longest start of a text that has the shape. -/
structure Longest (Shape : List Char → Prop) (part cs : List Char) : Prop where
  shape : Shape part
  starts : part <+: cs
  longest : ∀ other, Shape other → other <+: cs → other.length ≤ part.length

/-- There is only one. -/
theorem Longest.unique {Shape : List Char → Prop} {a b cs : List Char} (first : Longest Shape a cs)
    (second : Longest Shape b cs) : a = b := by
  have above := first.longest b second.shape second.starts
  have below := second.longest a first.shape first.starts
  apply (List.prefix_of_prefix_length_le first.starts second.starts below).eq_of_length
  omega

namespace Numeral

-- ============================================================= shapes

/-- Digits, of which there may be none. -/
def Digits (cs : List Char) : Prop := ∀ c ∈ cs, isDigit c = true

/-- The shape of a number without an exponent: digits, or digits with a point
and more digits or none behind it, or a point and digits. -/
inductive IsMantissa : List Char → Prop
  | whole {digits : List Char} (filled : digits ≠ []) (inside : Digits digits) : IsMantissa digits
  | point {digits fraction : List Char} (filled : digits ≠ []) (inside : Digits digits)
    (behind : Digits fraction) : IsMantissa (digits ++ '.' :: fraction)
  | bare {fraction : List Char} (filled : fraction ≠ []) (behind : Digits fraction) :
    IsMantissa ('.' :: fraction)

/-- The letter of an exponent. -/
def IsLetter (c : Char) : Prop := c = 'e' ∨ c = 'E'

/-- The shape of what marks an exponent: the letter, and a sign or none. -/
inductive IsMark : List Char → Prop
  | letter {c : Char} (letter : IsLetter c) : IsMark [c]
  | plus {c : Char} (letter : IsLetter c) : IsMark [c, '+']
  | minus {c : Char} (letter : IsLetter c) : IsMark [c, '-']

/-- The shape of an exponent: the mark and digits. -/
def IsExponent (cs : List Char) : Prop :=
  ∃ mark digits, cs = mark ++ digits ∧ IsMark mark ∧ digits ≠ [] ∧ Digits digits

theorem digits_takeWhile (cs : List Char) : Digits (cs.takeWhile isDigit) :=
  List.all_eq_true.1 List.all_takeWhile

/-- No digits go further than the run of digits. -/
theorem Digits.le_takeWhile {digits cs : List Char} (inside : Digits digits)
    (starts : digits <+: cs) : digits.length ≤ (cs.takeWhile isDigit).length := by
  obtain ⟨later, rfl⟩ := starts
  rw [List.takeWhile_append_of_pos inside, List.length_append]
  exact Nat.le_add_right _ _

-- ============================================================ mantissa

/-- The number without its exponent. -/
def mantissa (n : Numeral) : List Char := n.whole ++ fractionText n.fraction

/-- The exponent, or nothing. -/
def exponentText (n : Numeral) : List Char := (n.exponent.map Exponent.text).getD []

theorem text_eq (n : Numeral) : n.text = n.mantissa ++ n.exponentText := rfl

/-- A number without an exponent is digits, and perhaps a point and digits. -/
theorem IsMantissa.split {cs : List Char} (h : IsMantissa cs) :
    ∃ digits fraction, cs = digits ++ fractionText fraction ∧ Digits digits
      ∧ Digits (fraction.getD []) := by
  cases h with
  | whole filled inside => exact ⟨_, none, (List.append_nil _).symm, inside, nofun⟩
  | point filled inside behind => exact ⟨_, some _, rfl, inside, behind⟩
  | bare filled behind => exact ⟨[], some _, rfl, nofun, behind⟩

/-- Digits, and perhaps a point and digits, make up such a number if there is
a digit at all. -/
theorem isMantissa_of_split {digits : List Char} {fraction : Option (List Char)}
    (inside : Digits digits) (behind : Digits (fraction.getD []))
    (filled : digits ≠ [] ∨ fraction.getD [] ≠ []) :
    IsMantissa (digits ++ fractionText fraction) := by
  cases fraction with
  | none =>
      show IsMantissa (digits ++ [])
      rw [List.append_nil]
      exact .whole (filled.resolve_right fun none => none rfl) inside
  | some fraction =>
      by_cases empty : digits = []
      · subst empty
        exact .bare (filled.resolve_left fun none => none rfl) behind
      · exact .point empty inside behind

theorem digits_readFraction? (cs : List Char) : Digits ((readFraction? cs).getD []) := by
  unfold readFraction?
  split
  · exact digits_takeWhile _
  · exact nofun

/-- A text goes on behind the number without exponent, and the exponent is
read from there. -/
theorem read_split (cs : List Char) :
    ∃ behind, cs = (read cs).mantissa ++ behind
      ∧ (read cs).exponent = Exponent.read? behind := by
  have whole := List.prefix_iff_eq_append.1 (List.takeWhile_prefix isDigit (l := cs))
  have fraction := List.prefix_iff_eq_append.1
    (fractionText_starts (cs.drop (cs.takeWhile isDigit).length))
  refine ⟨_, ?_, rfl⟩
  rw [mantissa, List.append_assoc]
  exact whole.symm.trans (congrArg _ fraction.symm)

/-- No number without an exponent goes further than the one that is read. -/
theorem length_le_mantissa {digits cs : List Char} {fraction : Option (List Char)}
    (inside : Digits digits) (behind : Digits (fraction.getD []))
    (starts : digits ++ fractionText fraction <+: cs) :
    (digits ++ fractionText fraction).length ≤ (read cs).mantissa.length := by
  cases fraction with
  | none =>
      have short := inside.le_takeWhile ((List.prefix_append digits _).trans starts)
      rw [mantissa, List.length_append, List.length_append]
      exact Nat.add_le_add short (Nat.zero_le _)
  | some fraction =>
      obtain ⟨later, rfl⟩ := starts
      show (digits ++ '.' :: fraction).length ≤ _
      have run : (digits ++ '.' :: fraction ++ later).takeWhile isDigit = digits := by
        rw [List.append_assoc]
        exact takeWhile_run inside rfl
      have rest : (digits ++ '.' :: fraction ++ later).drop digits.length
          = '.' :: (fraction ++ later) := by
        rw [List.append_assoc, List.drop_left]
        rfl
      have short := behind.le_takeWhile (List.prefix_append fraction later)
      simp only [mantissa, read, fractionText, run, rest, readFraction?, List.length_append,
        List.length_cons]
      exact Nat.add_le_add_left (Nat.add_le_add_right short 1) _

/-- What is read before the exponent is the longest number without one. -/
theorem longest_mantissa {c : Char} {later : List Char}
    (starts : Lexeme.startsNumber c later = true) :
    Longest IsMantissa (read (c :: later)).mantissa (c :: later) := by
  constructor
  · apply isMantissa_of_split (digits_takeWhile _) (digits_readFraction? _)
    rcases Bool.or_eq_true_iff.1 starts with digit | point
    · left
      have some_digit : 0 < ((c :: later).takeWhile isDigit).length := Lexeme.takeWhile_pos digit
      exact List.length_pos_iff.1 some_digit
    · right
      obtain ⟨dot, digit⟩ := Bool.and_eq_true_iff.1 point
      obtain rfl : c = '.' := eq_of_beq dot
      have some_digit := Lexeme.takeWhile_pos digit
      exact List.length_pos_iff.1 some_digit
  · obtain ⟨behind, split, -⟩ := read_split (c :: later)
    exact ⟨behind, split.symm⟩
  · intro other shape within
    obtain ⟨digits, fraction, rfl, inside, behind⟩ := shape.split
    exact length_le_mantissa inside behind within

-- ============================================================ exponent

theorem IsMark.length_pos {mark : List Char} (h : IsMark mark) : 0 < mark.length := by
  cases h <;> exact Nat.succ_pos _

/-- Behind the letter stands a sign, which is no digit. -/
theorem IsMark.sign {front more : List Char} {c : Char} (h : IsMark (front ++ c :: more))
    (filled : front ≠ []) : isDigit c = false := by
  cases front with
  | nil => exact absurd rfl filled
  | cons first front =>
      generalize hmark : first :: front ++ c :: more = mark at h
      cases h with
      | letter => simp at hmark
      | plus =>
          have rest : front ++ c :: more = ['+'] := (List.cons.inj hmark).2
          obtain ⟨rfl, rfl⟩ : front = [] ∧ c = '+' := by
            cases front <;> simp_all
          rfl
      | minus =>
          have rest : front ++ c :: more = ['-'] := (List.cons.inj hmark).2
          obtain ⟨rfl, rfl⟩ : front = [] ∧ c = '-' := by
            cases front <;> simp_all
          rfl

/-- A mark with digits behind it is all of the mark that stands there. -/
theorem mark_of_exponent {mark shorter digits behind : List Char}
    (marked : Longest IsMark mark behind) (shape : IsMark shorter) (filled : digits ≠ [])
    (inside : Digits digits) (starts : shorter ++ digits <+: behind) : shorter = mark := by
  have front : shorter <+: behind := (List.prefix_append shorter digits).trans starts
  have short := marked.longest shorter shape front
  obtain ⟨more, rfl⟩ := List.prefix_of_prefix_length_le front marked.starts short
  cases more with
  | nil => exact (List.append_nil _).symm
  | cons sign more =>
      -- the mark would go on with a sign where the digits start
      obtain ⟨later, rfl⟩ := marked.starts
      rw [List.append_assoc, List.cons_append] at starts
      obtain ⟨last, same⟩ := (List.prefix_append_right_inj shorter).1 starts
      cases digits with
      | nil => exact absurd rfl filled
      | cons d digits =>
          obtain rfl : d = sign := (List.cons.inj same).1
          have digit := inside d List.mem_cons_self
          have other := marked.shape.sign (List.length_pos_iff.1 shape.length_pos)
          rw [digit] at other
          cases other

/-- No exponent is marked where none is read, and otherwise all of the mark
that stands there is read, and the digits behind it. -/
theorem exponent_cases (behind : List Char) :
    (Exponent.read? behind = none ∧ ∀ c ∈ behind.head?, ¬IsLetter c)
      ∨ ∃ e after, Exponent.read? behind = some e ∧ behind = e.mark :: e.sign ++ after
        ∧ Longest IsMark (e.mark :: e.sign) behind ∧ e.digits = after.takeWhile isDigit := by
  cases behind with
  | nil => exact Or.inl ⟨rfl, nofun⟩
  | cons c later =>
      by_cases letter : IsLetter c
      · right
        have split := List.prefix_iff_eq_append.1 (Exponent.signOf_starts later)
        refine ⟨⟨c, Exponent.signOf later, _⟩, later.drop (Exponent.signOf later).length,
          if_pos letter, ?_, ⟨?_, ?_, ?_⟩, rfl⟩
        · exact congrArg (c :: ·) split.symm
        · show IsMark (c :: Exponent.signOf later)
          unfold Exponent.signOf
          split
          · exact .plus letter
          · exact .minus letter
          · exact .letter letter
        · exact (List.prefix_cons_inj c).2 (Exponent.signOf_starts later)
        · intro other shape starts
          cases shape with
          | letter => exact Nat.succ_le_succ (Nat.zero_le _)
          | plus =>
              obtain ⟨more, same⟩ := starts
              obtain rfl : '+' :: more = later := (List.cons.inj same).2
              exact Nat.le_refl 2
          | minus =>
              obtain ⟨more, same⟩ := starts
              obtain rfl : '-' :: more = later := (List.cons.inj same).2
              exact Nat.le_refl 2
      · left
        refine ⟨if_neg letter, ?_⟩
        rintro _ ⟨⟩
        exact letter

/-- Where the mark has digits behind it, what is read is the longest exponent. -/
theorem longest_exponent {mark after : List Char} (marked : Longest IsMark mark (mark ++ after))
    (digit : after.head?.any isDigit = true) :
    Longest IsExponent (mark ++ after.takeWhile isDigit) (mark ++ after) := by
  have some_digit := Lexeme.takeWhile_pos digit
  constructor
  · exact ⟨mark, _, rfl, marked.shape, List.length_pos_iff.1 some_digit, digits_takeWhile after⟩
  · exact (List.prefix_append_right_inj mark).2 (List.takeWhile_prefix isDigit)
  · rintro _ ⟨shorter, digits, rfl, shape, filled, inside⟩ starts
    obtain rfl := mark_of_exponent marked shape filled inside starts
    have short := inside.le_takeWhile ((List.prefix_append_right_inj shorter).1 starts)
    rw [List.length_append, List.length_append]
    exact Nat.add_le_add_left short _

/-- Where it has none behind it there is no exponent. -/
theorem not_isExponent {mark after part : List Char} (marked : Longest IsMark mark (mark ++ after))
    (bare : after.head?.any isDigit = false) (starts : part <+: mark ++ after) :
    ¬IsExponent part := by
  rintro ⟨shorter, digits, rfl, shape, filled, inside⟩
  obtain rfl := mark_of_exponent marked shape filled inside starts
  obtain ⟨later, rfl⟩ := (List.prefix_append_right_inj shorter).1 starts
  cases digits with
  | nil => exact filled rfl
  | cons d digits =>
      have digit := inside d List.mem_cons_self
      rw [List.cons_append, List.head?_cons, Option.any_some, digit] at bare
      cases bare

-- ============================================================== values

/-- The number that the digits spell, with the point left out. -/
def significand (mantissa : List Char) : Nat := digitsValue (mantissa.filter isDigit)

/-- How many digits stand behind the point. -/
def places (mantissa : List Char) : Nat := (mantissa.dropWhile (· ≠ '.')).tail.length

/-- The power of ten that an exponent names. No exponent names none. -/
def power (exponent : List Char) : Int :=
  if '-' ∈ exponent then -(digitsValue (exponent.filter isDigit) : Int)
  else digitsValue (exponent.filter isDigit)

/-- The parts of a number have their shapes. -/
structure Shaped (n : Numeral) : Prop where
  whole : Digits n.whole
  fraction : Digits (n.fraction.getD [])
  exponent : ∀ e ∈ n.exponent, IsMark (e.mark :: e.sign) ∧ Digits e.digits

theorem shaped_read (cs : List Char) : (read cs).Shaped := by
  refine ⟨digits_takeWhile _, digits_readFraction? _, fun e given => ?_⟩
  obtain ⟨behind, -, same⟩ := read_split cs
  rw [same] at given
  rcases exponent_cases behind with ⟨none, -⟩ | ⟨e', after, found, -, marked, digits⟩
  · rw [none] at given
    cases given
  · obtain rfl : e' = e := Option.some.inj (found.symm.trans given)
    rw [digits]
    exact ⟨marked.shape, digits_takeWhile after⟩

theorem Digits.filter {cs : List Char} (h : Digits cs) : cs.filter isDigit = cs :=
  List.filter_eq_self.2 h

theorem Digits.not_mem {cs : List Char} (h : Digits cs) {c : Char} (other : isDigit c = false) :
    c ∉ cs := by
  intro mem
  rw [h c mem] at other
  cases other

theorem IsMark.isLetter {c : Char} {more : List Char} (h : IsMark (c :: more)) : IsLetter c := by
  cases h <;> assumption

/-- A text that starts with a mark starts with its letter. -/
theorem IsMark.exists_letter {mark : List Char} (h : IsMark mark) (after : List Char) :
    ∃ c ∈ (mark ++ after).head?, IsLetter c := by
  cases mark with
  | nil => exact absurd h.length_pos (Nat.lt_irrefl 0)
  | cons c mark => exact ⟨c, rfl, h.isLetter⟩

theorem IsLetter.isDigit {c : Char} (h : IsLetter c) : isDigit c = false := by
  rcases h with rfl | rfl <;> rfl

/-- There is no digit in a mark. -/
theorem IsMark.filter {mark : List Char} (h : IsMark mark) : mark.filter isDigit = [] := by
  cases h with
  | letter letter => rcases letter with rfl | rfl <;> rfl
  | plus letter => rcases letter with rfl | rfl <;> rfl
  | minus letter => rcases letter with rfl | rfl <;> rfl

theorem IsMark.mem_minus {c : Char} {sign : List Char} (h : IsMark (c :: sign)) :
    '-' ∈ c :: sign ↔ sign = ['-'] := by
  cases h with
  | letter letter => rcases letter with rfl | rfl <;> decide
  | plus letter => rcases letter with rfl | rfl <;> decide
  | minus letter => rcases letter with rfl | rfl <;> decide

namespace Shaped

variable {n : Numeral} (shaped : n.Shaped)

include shaped

theorem filter_mantissa : n.mantissa.filter isDigit = n.whole ++ n.fraction.getD [] := by
  unfold mantissa
  rw [List.filter_append, shaped.whole.filter]
  cases hfraction : n.fraction with
  | none => rfl
  | some digits =>
      have behind : Digits digits := by
        have inside := shaped.fraction
        rwa [hfraction] at inside
      show n.whole ++ ('.' :: digits).filter isDigit = n.whole ++ digits
      rw [List.filter_cons_of_neg (by decide), behind.filter]

theorem places_mantissa : places n.mantissa = (n.fraction.getD []).length := by
  have plain : ∀ c ∈ n.whole, decide (c ≠ '.') = true := by
    intro c mem
    apply decide_eq_true
    rintro rfl
    exact shaped.whole.not_mem rfl mem
  unfold places mantissa
  rw [List.dropWhile_append_of_pos plain]
  cases n.fraction with
  | none => rfl
  | some digits => simp [fractionText]

theorem power_exponentText :
    power n.exponentText = (n.exponent.map Exponent.power).getD 0 := by
  unfold exponentText
  cases hexponent : n.exponent with
  | none => rfl
  | some e =>
      obtain ⟨mark, inside⟩ := shaped.exponent e hexponent
      have text : e.text = e.mark :: e.sign ++ e.digits := rfl
      have named : e.text.filter isDigit = e.digits := by
        rw [text, List.filter_append, mark.filter, inside.filter, List.nil_append]
      have sign : '-' ∈ e.text ↔ e.sign = ['-'] := by
        rw [text, List.mem_append, mark.mem_minus]
        exact or_iff_left (inside.not_mem rfl)
      show power e.text = e.power
      unfold power Exponent.power
      rw [named]
      simp only [sign]

/-- A number is whole if it is digits only. -/
theorem digits_text : Digits n.text ↔ n.isWhole = true := by
  have split : Digits n.text ↔ Digits (fractionText n.fraction) ∧ Digits n.exponentText := by
    unfold Digits
    rw [text_eq, mantissa, List.append_assoc, List.forall_mem_append, List.forall_mem_append]
    exact and_iff_right shaped.whole
  have point : Digits (fractionText n.fraction) ↔ n.fraction.isNone = true := by
    cases n.fraction with
    | none => exact iff_of_true nofun rfl
    | some digits =>
        refine iff_of_false (fun inside => ?_) nofun
        exact inside.not_mem (c := '.') rfl List.mem_cons_self
  have exponent : Digits n.exponentText ↔ n.exponent.isNone = true := by
    unfold exponentText
    cases hexponent : n.exponent with
    | none => exact iff_of_true nofun rfl
    | some e =>
        refine iff_of_false (fun inside => ?_) nofun
        have letter := (shaped.exponent e hexponent).1.isLetter
        exact inside.not_mem letter.isDigit List.mem_cons_self
  rw [split, point, exponent, isWhole, Bool.and_eq_true]

/-- What the number stands for, by its text. -/
theorem kind?_eq : n.kind? = if n.isWhole then
      if digitsValue n.text < twoTo 63 then some (.integer (Int64.ofNat (digitsValue n.text)))
      else none
    else (Double.ofDecimal? (significand n.mantissa)
      (power n.exponentText - places n.mantissa)).map .numeric := by
  unfold kind?
  by_cases whole : n.isWhole = true
  · obtain ⟨point, exponent⟩ := Bool.and_eq_true_iff.1 whole
    have text : n.text = n.whole := by
      rw [text_eq, mantissa, exponentText, Option.isNone_iff_eq_none.1 point,
        Option.isNone_iff_eq_none.1 exponent]
      simp [fractionText]
    rw [if_pos whole, if_pos whole, text]
  · rw [if_neg whole, if_neg whole, shaped.power_exponentText, shaped.places_mantissa,
      significand, shaped.filter_mantissa]

end Shaped

-- ============================================================= reading

/-- The text starts with a number: the longest without an exponent, and the
longest exponent behind it if one is marked there. -/
inductive Literal (cs : List Char) : List Char → List Char → List Char → Prop
  | plain {mantissa after : List Char} (longest : Longest IsMantissa mantissa cs)
    (text : cs = mantissa ++ after) (unmarked : ∀ c ∈ after.head?, ¬IsLetter c) :
    Literal cs mantissa [] after
  | exponent {mantissa exponent after : List Char} (longest : Longest IsMantissa mantissa cs)
    (text : cs = mantissa ++ (exponent ++ after))
    (behind : Longest IsExponent exponent (exponent ++ after)) :
    Literal cs mantissa exponent after

/-- A fault with the text read so far. -/
def invalid (text : List Char) : Except LexicalFault Kind :=
  .error (.invalidNumber (String.ofList text))

/-- What a text that starts with a number is read as, and how much of it. -/
inductive Reading (cs : List Char) : Except LexicalFault Kind → List Char → Prop
  /-- No digits stand behind the mark of an exponent. -/
  | unfinished {mantissa mark after : List Char} (longest : Longest IsMantissa mantissa cs)
    (text : cs = mantissa ++ (mark ++ after)) (marked : Longest IsMark mark (mark ++ after))
    (bare : after.head?.any isDigit = false) :
    Reading cs (invalid (mantissa ++ mark)) (mantissa ++ mark)
  /-- A word runs into the number. -/
  | runsOn {mantissa exponent after : List Char} (literal : Literal cs mantissa exponent after)
    (letter : after.head?.any runsOn = true) :
    Reading cs (invalid (mantissa ++ exponent ++ after.takeWhile runsFurther))
      (mantissa ++ exponent ++ after.takeWhile runsFurther)
  /-- A whole number within 63 bits. -/
  | integer {mantissa exponent after : List Char} {value : Int64}
    (literal : Literal cs mantissa exponent after) (ends : after.head?.any runsOn = false)
    (whole : Digits (mantissa ++ exponent))
    (exact : value.toInt = digitsValue (mantissa ++ exponent)) :
    Reading cs (.ok (.integer value)) (mantissa ++ exponent)
  /-- A whole number beyond that. -/
  | tooLarge {mantissa exponent after : List Char}
    (literal : Literal cs mantissa exponent after) (ends : after.head?.any runsOn = false)
    (whole : Digits (mantissa ++ exponent))
    (large : twoTo 63 - 1 < digitsValue (mantissa ++ exponent)) :
    Reading cs (invalid (mantissa ++ exponent)) (mantissa ++ exponent)
  /-- A decimal, and the double nearest to it. -/
  | numeric {mantissa exponent after : List Char} {value : Double}
    (literal : Literal cs mantissa exponent after) (ends : after.head?.any runsOn = false)
    (decimal : ¬Digits (mantissa ++ exponent))
    (nearest : Double.ofDecimal? (significand mantissa) (power exponent - places mantissa)
      = some value) :
    Reading cs (.ok (.numeric value)) (mantissa ++ exponent)
  /-- A decimal that no double is nearest to. -/
  | infinite {mantissa exponent after : List Char}
    (literal : Literal cs mantissa exponent after) (ends : after.head?.any runsOn = false)
    (decimal : ¬Digits (mantissa ++ exponent))
    (large : Double.Overflows (significand mantissa) (power exponent - places mantissa)) :
    Reading cs (invalid (mantissa ++ exponent)) (mantissa ++ exponent)

section

variable {c : Char} {later : List Char} (starts : Lexeme.startsNumber c later = true)

include starts

/-- The longest number without an exponent is read, and the exponent behind
it. -/
theorem read_of_longest {mantissa behind : List Char}
    (longest : Longest IsMantissa mantissa (c :: later)) (text : c :: later = mantissa ++ behind) :
    (read (c :: later)).mantissa = mantissa
      ∧ (read (c :: later)).exponent = Exponent.read? behind := by
  have same : (read (c :: later)).mantissa = mantissa := (longest_mantissa starts).unique longest
  obtain ⟨behind', split, exponent⟩ := read_split (c :: later)
  rw [same] at split
  obtain rfl : behind = behind' := List.append_cancel_left (text.symm.trans split)
  exact ⟨same, exponent⟩

/-- A number whose exponent is marked and has no digits is a fault. -/
theorem scan_unfinished {mantissa mark after : List Char}
    (longest : Longest IsMantissa mantissa (c :: later))
    (text : c :: later = mantissa ++ (mark ++ after)) (marked : Longest IsMark mark (mark ++ after))
    (bare : after.head?.any isDigit = false) :
    scan (c :: later) = ⟨invalid (mantissa ++ mark), (mantissa ++ mark).length⟩ := by
  obtain ⟨same, found⟩ := read_of_longest starts longest text
  rcases exponent_cases (mark ++ after) with ⟨-, unmarked⟩ |
    ⟨e, rest, read, whole, marked', digits⟩
  · obtain ⟨first, head, letter⟩ := marked.shape.exists_letter after
    exact absurd letter (unmarked first head)
  · obtain rfl : e.mark :: e.sign = mark := marked'.unique marked
    obtain rfl : after = rest := List.append_cancel_left whole
    have none : e.digits = [] := by
      rw [digits]
      have run : ([] ++ after).takeWhile isDigit = [] := takeWhile_run nofun bare
      exact run
    have lacks : (Numeral.read (c :: later)).lacksExponent = true := by
      rw [lacksExponent, found, read, Option.any_some, none]
      rfl
    have width : (Numeral.read (c :: later)).text = mantissa ++ (e.mark :: e.sign) := by
      rw [text_eq, same, exponentText, found, read]
      show mantissa ++ e.mark :: (e.sign ++ e.digits) = _
      rw [none, List.append_nil]
    unfold Numeral.scan
    simp only [width, lacks, if_true]
    rw [text, ← List.append_assoc, List.take_left]
    rfl

/-- The number that a text starts with is read. -/
theorem Literal.read {mantissa exponent after : List Char}
    (h : Literal (c :: later) mantissa exponent after) :
    (read (c :: later)).mantissa = mantissa ∧ (read (c :: later)).exponentText = exponent
      ∧ (read (c :: later)).lacksExponent = false
      ∧ c :: later = mantissa ++ exponent ++ after := by
  cases h with
  | plain longest text unmarked =>
      obtain ⟨same, exponent⟩ := read_of_longest starts longest text
      rcases exponent_cases after with ⟨none, -⟩ | ⟨e, rest, -, whole, marked, -⟩
      · rw [none] at exponent
        refine ⟨same, ?_, ?_, ?_⟩
        · rw [exponentText, exponent]
          rfl
        · rw [lacksExponent, exponent]
          rfl
        · rw [text, List.append_nil]
      · subst whole
        exact absurd marked.shape.isLetter (unmarked e.mark rfl)
  | exponent longest text behind =>
      obtain ⟨same, found⟩ := read_of_longest starts longest text
      rcases exponent_cases (exponent ++ after) with ⟨-, unmarked⟩ |
        ⟨e, rest, read, whole, marked, digits⟩
      · obtain ⟨mark, digits, rfl, shape, -⟩ := behind.shape
        rw [List.append_assoc] at unmarked
        obtain ⟨first, head, letter⟩ := shape.exists_letter (digits ++ after)
        exact absurd letter (unmarked first head)
      · have starts' := behind.starts
        rw [whole] at marked behind starts'
        cases digit : rest.head?.any isDigit with
        | false => exact absurd behind.shape (not_isExponent marked digit starts')
        | true =>
            have exact : e.mark :: e.sign ++ e.digits = exponent := by
              rw [digits]
              exact (longest_exponent marked digit).unique behind
            have filled : e.digits ≠ [] := by
              rw [digits]
              exact List.length_pos_iff.1 (Lexeme.takeWhile_pos digit)
            rw [read] at found
            refine ⟨same, ?_, ?_, ?_⟩
            · rw [exponentText, found]
              exact exact
            · rw [lacksExponent, found]
              exact Bool.eq_false_iff.2 fun none => filled (List.isEmpty_iff.1 none)
            · rw [text, List.append_assoc]

/-- What the scanner makes of the number that a text starts with. -/
theorem Literal.scan {mantissa exponent after : List Char}
    (h : Literal (c :: later) mantissa exponent after) :
    scan (c :: later) = if after.head?.any runsOn then
        ⟨invalid (mantissa ++ exponent ++ after.takeWhile runsFurther),
          (mantissa ++ exponent ++ after.takeWhile runsFurther).length⟩
      else match (Numeral.read (c :: later)).kind? with
        | some kind => .ok kind (mantissa ++ exponent).length
        | none => ⟨invalid (mantissa ++ exponent), (mantissa ++ exponent).length⟩ := by
  obtain ⟨same, found, complete, whole⟩ := h.read starts
  have text : (Numeral.read (c :: later)).text = mantissa ++ exponent := by
    rw [text_eq, same, found]
  have rest : (c :: later).drop (mantissa ++ exponent).length = after := by
    rw [whole, List.drop_left]
  have front : (c :: later).take (mantissa ++ exponent).length = mantissa ++ exponent := by
    rw [whole, List.take_left]
  have further : (c :: later).take ((mantissa ++ exponent).length
      + (after.takeWhile runsFurther).length)
        = mantissa ++ exponent ++ after.takeWhile runsFurther := by
    rw [whole, List.take_length_add_append,
      ← List.prefix_iff_eq_take.1 (List.takeWhile_prefix runsFurther)]
  unfold Numeral.scan
  simp only [text, rest, front, further, complete, Bool.false_eq_true, if_false]
  rw [← List.length_append]
  rfl

/-- Digits only stand for the whole number that they spell, if it is not too
large. -/
theorem Literal.kind?_whole {mantissa exponent after : List Char}
    (h : Literal (c :: later) mantissa exponent after) (whole : Digits (mantissa ++ exponent)) :
    (Numeral.read (c :: later)).kind? = if digitsValue (mantissa ++ exponent) < twoTo 63 then
        some (.integer (Int64.ofNat (digitsValue (mantissa ++ exponent)))) else none := by
  obtain ⟨same, found, -, -⟩ := h.read starts
  have shaped := shaped_read (c :: later)
  have text : (Numeral.read (c :: later)).text = mantissa ++ exponent := by
    rw [text_eq, same, found]
  rw [shaped.kind?_eq, if_pos (shaped.digits_text.1 (text ▸ whole)), text]

/-- A number with a point or an exponent stands for the double nearest to it. -/
theorem Literal.kind?_decimal {mantissa exponent after : List Char}
    (h : Literal (c :: later) mantissa exponent after) (decimal : ¬Digits (mantissa ++ exponent)) :
    (Numeral.read (c :: later)).kind?
      = (Double.ofDecimal? (significand mantissa) (power exponent - places mantissa)).map
        .numeric := by
  obtain ⟨same, found, -, -⟩ := h.read starts
  have shaped := shaped_read (c :: later)
  have text : (Numeral.read (c :: later)).text = mantissa ++ exponent := by
    rw [text_eq, same, found]
  rw [shaped.kind?_eq, if_neg fun whole => decimal (text ▸ shaped.digits_text.2 whole), same,
    found]

/-- What the scanner finds is the reading of the text. -/
theorem Reading.scan {found : Except LexicalFault Kind} {text : List Char}
    (h : Reading (c :: later) found text) :
    scan (c :: later) = ⟨found, text.length⟩ ∧ text <+: c :: later := by
  have prefix_ {mantissa exponent after : List Char}
      (literal : Literal (c :: later) mantissa exponent after) :
      mantissa ++ exponent <+: c :: later := by
    obtain ⟨-, -, -, whole⟩ := literal.read starts
    exact ⟨after, whole.symm⟩
  cases h with
  | @unfinished _ _ after longest text marked bare =>
      refine ⟨scan_unfinished starts longest text marked bare, after, ?_⟩
      rw [text, List.append_assoc]
  | runsOn literal letter =>
      refine ⟨?_, ?_⟩
      · rw [literal.scan starts, if_pos letter]
      · obtain ⟨-, -, -, whole⟩ := literal.read starts
        rw [whole]
        exact (List.prefix_append_right_inj _).2 (List.takeWhile_prefix _)
  | @integer mantissa exponent _ value literal ends whole exact =>
      have small : digitsValue (mantissa ++ exponent) < twoTo 63 := by
        have bound : value.toInt < (2 : Int) ^ 63 := value.toInt_lt
        rw [exact] at bound
        exact Int.ofNat_lt.1 bound
      have same : Int64.ofNat (digitsValue (mantissa ++ exponent)) = value := by
        rw [← Int64.toInt_inj, Int64.toInt_ofNat_of_lt small, exact]
      refine ⟨?_, prefix_ literal⟩
      rw [literal.scan starts, if_neg (Bool.eq_false_iff.1 ends), literal.kind?_whole starts whole,
        if_pos small, same]
      rfl
  | tooLarge literal ends whole large =>
      refine ⟨?_, prefix_ literal⟩
      rw [literal.scan starts, if_neg (Bool.eq_false_iff.1 ends), literal.kind?_whole starts whole,
        if_neg (by omega)]
  | numeric literal ends decimal nearest =>
      refine ⟨?_, prefix_ literal⟩
      rw [literal.scan starts, if_neg (Bool.eq_false_iff.1 ends),
        literal.kind?_decimal starts decimal, nearest]
      rfl
  | infinite literal ends decimal large =>
      refine ⟨?_, prefix_ literal⟩
      rw [literal.scan starts, if_neg (Bool.eq_false_iff.1 ends),
        literal.kind?_decimal starts decimal, Double.ofDecimal?_eq_none_iff.2 large]
      rfl

omit starts in
/-- The number at the start of a text has a reading. -/
theorem Literal.exists_reading {cs mantissa exponent after : List Char}
    (literal : Literal cs mantissa exponent after) : ∃ found text, Reading cs found text := by
  cases letter : after.head?.any runsOn with
  | true => exact ⟨_, _, .runsOn literal letter⟩
  | false =>
      by_cases whole : Digits (mantissa ++ exponent)
      · by_cases small : digitsValue (mantissa ++ exponent) < twoTo 63
        · exact ⟨_, _, .integer literal letter whole (Int64.toInt_ofNat_of_lt small)⟩
        · have some_ := Double.twoTo_pos 63
          have large : twoTo 63 - 1 < digitsValue (mantissa ++ exponent) := by omega
          exact ⟨_, _, .tooLarge literal letter whole large⟩
      · cases nearest : Double.ofDecimal? (significand mantissa)
            (power exponent - places mantissa) with
        | some value => exact ⟨_, _, .numeric literal letter whole nearest⟩
        | none =>
            have large := Double.ofDecimal?_eq_none_iff.1 nearest
            exact ⟨_, _, .infinite literal letter whole large⟩

/-- Every text that starts with a number has a reading. -/
theorem exists_reading : ∃ found text, Reading (c :: later) found text := by
  have longest := longest_mantissa starts
  obtain ⟨behind, split, -⟩ := read_split (c :: later)
  rcases exponent_cases behind with ⟨-, unmarked⟩ | ⟨e, after, -, whole, marked, -⟩
  · exact (Literal.plain longest split unmarked).exists_reading
  · rw [whole] at split marked
    cases digit : after.head?.any isDigit with
    | false => exact ⟨_, _, .unfinished longest split marked digit⟩
    | true =>
        have part := longest_exponent marked digit
        have text : e.mark :: e.sign ++ after
            = e.mark :: e.sign ++ after.takeWhile isDigit ++ after.dropWhile isDigit := by
          rw [List.append_assoc, List.takeWhile_append_dropWhile]
        rw [text] at split part
        exact (Literal.exponent longest split part).exists_reading

end

end Numeral

/-- Where a number starts there is no trivia. -/
theorem Trivia.starts_of_startsNumber {c : Char} {later : List Char}
    (starts : Lexeme.startsNumber c later = true) : Starts (c :: later) := by
  apply starts_cons
  rcases Bool.or_eq_true_iff.1 starts with digit | point
  · exact plain_of_isDigit digit
  · obtain rfl : c = '.' := eq_of_beq (Bool.and_eq_true_iff.1 point).1
    decide

open Numeral (Reading)

/-- Numbers are read as far as they go and no further, wherever a number
starts in a text. It has exactly one reading, and the next step of the scanner
finds that, with the span of its text, and goes on behind it. -/
theorem step_number (front : List Char) {c : Char} {later : List Char}
    (starts : Lexeme.startsNumber c later = true) :
    ∃ found text, Reading (c :: later) found text
      ∧ (∀ found' text', Reading (c :: later) found' text' → found' = found ∧ text' = text)
      ∧ Text.slice (front ++ c :: later) (byteLength front) (byteLength front + byteLength text)
        = some text
      ∧ (Scanner.mk (byteLength front) (c :: later)).step
        = (⟨found, ⟨byteLength front, byteLength front + byteLength text⟩⟩,
          ⟨byteLength front + byteLength text, (c :: later).drop text.length⟩) := by
  obtain ⟨found, text, reading⟩ := Numeral.exists_reading starts
  obtain ⟨scan, within⟩ := reading.scan starts
  refine ⟨found, text, reading, ?_, ?_, ?_⟩
  · intro found' text' other
    obtain ⟨scan', within'⟩ := other.scan starts
    have same : Lexeme.mk found' text'.length = ⟨found, text.length⟩ := scan'.symm.trans scan
    have short := Nat.le_of_eq (congrArg Lexeme.length same)
    have width := congrArg Lexeme.length same
    exact ⟨congrArg Lexeme.found same,
      (List.prefix_of_prefix_length_le within' within short).eq_of_length width⟩
  · obtain ⟨after, whole⟩ := within
    rw [← whole]
    exact Text.slice_append front text after
  · have skipped : Trivia.skip 0 ([] ++ c :: later) = .token 0 :=
      Trivia.skip_starts (Trivia.starts_of_startsNumber starts) 0
    have read : Lexeme.scan (c :: later) = ⟨found, text.length⟩ := by
      rw [Lexeme.scan, if_pos starts, scan]
    have step := Scanner.step_behind skipped (byteLength front)
    rw [read, ← List.prefix_iff_eq_take.1 within] at step
    exact step

/-- A point with digits and an exponent behind it, in a text with a letter of
two bytes before the number. -/
theorem step_number_exponent : Lexeme.startsNumber '.' "5e-3, 1 from t".toList = true
    ∧ ∃ found text, found = .ok (.numeric ⟨false, 0x3F40624DD2F1A9FC, by decide⟩)
      ∧ text = ['.', '5', 'e', '-', '3'] ∧ Reading ".5e-3, 1 from t".toList found text
      ∧ (∀ found' text', Reading ".5e-3, 1 from t".toList found' text' →
        found' = found ∧ text' = text)
      ∧ Text.slice "select é, .5e-3, 1 from t".toList 11 16 = some text
      ∧ (Scanner.mk 11 ".5e-3, 1 from t".toList).step
        = (⟨found, ⟨11, 16⟩⟩, ⟨16, ", 1 from t".toList⟩) := by
  have starts : Lexeme.startsNumber '.' "5e-3, 1 from t".toList = true := by decide
  have value : (Scanner.mk 11 ".5e-3, 1 from t".toList).step.1.found.toOption
      = some (.numeric ⟨false, 0x3F40624DD2F1A9FC, by decide⟩) := by
    decide +kernel
  have place : (Scanner.mk 11 ".5e-3, 1 from t".toList).step.1.span = ⟨11, 16⟩ := by
    decide +kernel
  obtain ⟨found, text, reading, unique, slice, step⟩ := step_number "select é, ".toList starts
  have step : (Scanner.mk 11 ".5e-3, 1 from t".toList).step
      = (⟨found, ⟨11, 11 + byteLength text⟩⟩,
        ⟨11 + byteLength text, ".5e-3, 1 from t".toList.drop text.length⟩) := step
  rw [step] at value place
  have stop : 11 + byteLength text = 16 := congrArg Span.stop place
  have slice : Text.slice "select é, .5e-3, 1 from t".toList 11 (11 + byteLength text)
      = some text := slice
  rw [stop] at slice step
  have known : Text.slice "select é, .5e-3, 1 from t".toList 11 16
      = some ['.', '5', 'e', '-', '3'] := by
    decide +kernel
  obtain rfl : text = ['.', '5', 'e', '-', '3'] := Option.some.inj (slice.symm.trans known)
  cases found with
  | error fault => cases value
  | ok kind =>
      exact ⟨starts, _, _, congrArg _ (Option.some.inj value), rfl, reading, unique, slice, step⟩

end SqlSelect
