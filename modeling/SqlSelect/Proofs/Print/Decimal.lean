/-
A spelling of numbers that is read back.

Every magnitude is a whole number of units of two to the power -1074, so
it is a decimal with at most 1074 digits behind the point. Written out
exactly, it is nearest to itself: no digit is lost, and the scanner has
nothing to round.
-/
import SqlSelect.Proofs.Complete.Text

namespace SqlSelect

open Text (isDigit)

namespace Double

/-- A quotient without remainder is not rounded. -/
theorem roundHalfEven_mul (n : Nat) {den : Nat} (positive : 0 < den) :
    roundHalfEven (n * den) den = n := by
  simp only [roundHalfEven, Nat.mul_div_cancel n positive, Nat.mul_mod_left, Nat.mul_zero]
  rw [if_neg]
  omega

/-- A significand of at most 53 bits is kept as it is. -/
theorem nearestPattern_mul {significand shift den : Nat} (positive : 0 < den)
    (fits : (significand * twoTo shift).log2 - 52 = shift) :
    nearestPattern (significand * twoTo shift * den) den = significand + shift * twoTo 52 := by
  have scaled : significand * twoTo shift * den = significand * (den * twoTo shift) := by
    rw [Nat.mul_assoc, Nat.mul_comm (twoTo shift)]
  have filled : 0 < den * twoTo shift := Nat.mul_pos positive (Nat.two_pow_pos shift)
  simp only [nearestPattern, Nat.mul_div_cancel _ positive, fits]
  rw [scaled, roundHalfEven_mul significand filled]

/-- A significand of 53 bits has its leading bit at the place 52. -/
theorem log2_significand {fraction shift : Nat} (lower : fraction < twoTo 52) :
    ((twoTo 52 + fraction) * twoTo shift).log2 - 52 = shift := by
  have low : 2 ^ (52 + shift) ≤ (twoTo 52 + fraction) * twoTo shift := by
    rw [Nat.pow_add]
    exact Nat.mul_le_mul_right _ (Nat.le_add_right _ _)
  have high : (twoTo 52 + fraction) * twoTo shift < 2 ^ (52 + shift + 1) := by
    have short : twoTo 52 + fraction < 2 ^ (52 + 1) := Nat.add_lt_add_left lower (twoTo 52)
    rw [Nat.add_right_comm, Nat.pow_add]
    exact Nat.mul_lt_mul_of_pos_right short (Nat.two_pow_pos shift)
  have filled : (twoTo 52 + fraction) * twoTo shift ≠ 0 := by
    have := Nat.two_pow_pos (52 + shift)
    omega
  rw [(Nat.log2_eq_iff filled).2 ⟨low, high⟩]
  exact Nat.add_sub_cancel_left 52 shift

/-- A pattern is nearest to its own magnitude. -/
theorem nearestPattern_units (pattern : Nat) {den : Nat} (positive : 0 < den) :
    nearestPattern (units pattern * den) den = pattern := by
  unfold units
  split
  next small =>
    have fits : (pattern * twoTo 0).log2 - 52 = 0 := by
      rw [Nat.mul_one]
      by_cases zero : pattern = 0
      · subst zero
        rfl
      · have := (Nat.log2_lt zero).2 small
        omega
    have whole := nearestPattern_mul positive fits
    rwa [Nat.mul_one, Nat.zero_mul, Nat.add_zero] at whole
  next large =>
    have split : twoTo 52 * (pattern / twoTo 52) + pattern % twoTo 52 = pattern :=
      Nat.div_add_mod pattern (twoTo 52)
    have upper : 0 < pattern / twoTo 52 :=
      Nat.div_pos (Nat.le_of_not_lt large) (Nat.two_pow_pos 52)
    have lower : pattern % twoTo 52 < twoTo 52 := Nat.mod_lt _ (Nat.two_pow_pos 52)
    obtain ⟨shift, hshift⟩ : ∃ shift, pattern / twoTo 52 = shift + 1 :=
      ⟨_, (Nat.succ_pred_eq_of_pos upper).symm⟩
    rw [hshift] at split ⊢
    rw [Nat.add_sub_cancel, nearestPattern_mul positive (log2_significand lower)]
    rw [Nat.mul_succ, Nat.mul_comm] at split
    omega

/-- Only zero has no magnitude. -/
theorem units_eq_zero {pattern : Nat} (h : units pattern = 0) : pattern = 0 := by
  have nearest := nearestPattern_units pattern Nat.one_pos
  rw [h] at nearest
  exact nearest.symm

/-- The number nearest to a decimal with so many places behind the point. -/
theorem ofDecimal?_eq {digits places : Nat} {x : Double} (positive : x.negative = false)
    (filled : digits ≠ 0) (long : -400 ≤ -(places : Int) + digitCount digits)
    (nearest : nearestPattern (digits * twoTo 1074) (tenTo places) = x.pattern) :
    ofDecimal? digits (-places) = some x := by
  obtain ⟨negative, pattern, isFinite⟩ := x
  cases positive
  have whole : (-(places : Int)).toNat = 0 := by omega
  have behind : (- -(places : Int)).toNat = places := by omega
  have sizes : ¬(digits = 0 ∨ -(places : Int) + digitCount digits < -400) := by omega
  have small : ¬400 < -(places : Int) := by omega
  have scaled : digits * tenTo 0 = digits := Nat.mul_one digits
  unfold ofDecimal?
  simp only [if_neg sizes, if_neg small, whole, behind, scaled, nearest]
  exact dif_pos isFinite

theorem tenTo_pos (n : Nat) : 0 < tenTo n := Nat.pow_pos (by decide)

/-- `5 ^ n`. -/
abbrev fiveTo (n : Nat) : Nat := Nat.pow 5 n

theorem fiveTo_mul_twoTo (n : Nat) : fiveTo n * twoTo n = tenTo n := (Nat.mul_pow 5 2 n).symm

theorem tenTo_le_fiveTo {n m k : Nat} (sum : n + m = k) (half : n ≤ 2 * m) :
    tenTo n ≤ fiveTo k := by
  have factor : twoTo n ≤ fiveTo m :=
    calc twoTo n ≤ twoTo (2 * m) := Nat.pow_le_pow_right (by decide) half
      _ = Nat.pow 4 m := Nat.pow_mul 2 2 m
      _ ≤ fiveTo m := Nat.pow_le_pow_left (by decide) m
  calc tenTo n = fiveTo n * twoTo n := Nat.mul_pow 5 2 n
    _ ≤ fiveTo n * fiveTo m := Nat.mul_le_mul_left _ factor
    _ = fiveTo (n + m) := (Nat.pow_add 5 n m).symm
    _ = fiveTo k := by rw [sum]

/-- The decimal digits of a magnitude, so many of them behind the point. -/
def exactDigits (places pattern : Nat) : Nat := units pattern * fiveTo places

theorem exactDigits_zero (places : Nat) : exactDigits places 0 = 0 := Nat.zero_mul _

theorem exactDigits_mul (places pattern : Nat) :
    exactDigits places pattern * twoTo places = units pattern * tenTo places := by
  rw [exactDigits, Nat.mul_assoc, fiveTo_mul_twoTo]

/-- A magnitude other than zero has many digits. -/
theorem lt_digitCount_exactDigits {places pattern n m : Nat} (sum : n + m = places)
    (half : n ≤ 2 * m) (some_ : 0 < n) (filled : units pattern ≠ 0) :
    n < digitCount (exactDigits places pattern) := by
  have many : tenTo n ≤ exactDigits places pattern :=
    Nat.le_trans (tenTo_le_fiveTo sum half)
      (Nat.le_mul_of_pos_left _ (Nat.pos_of_ne_zero filled))
  refine Nat.lt_of_not_le fun few => Nat.not_lt.2 many ?_
  exact (Nat.length_toDigits_le_iff (by decide) some_).1 few

/-- The exact decimal of a magnitude is not rounded. -/
theorem ofDecimal?_exactDigits {x : Double} (positive : x.negative = false) :
    ofDecimal? (exactDigits 1074 x.pattern) (-(1074 : Nat)) = some x := by
  by_cases zero : units x.pattern = 0
  · obtain ⟨negative, pattern, isFinite⟩ := x
    cases positive
    obtain rfl : pattern = 0 := units_eq_zero zero
    rw [exactDigits_zero]
    unfold ofDecimal?
    simp only [true_or, if_true]
    exact dif_pos isFinite
  · have long : 673 < digitCount (exactDigits 1074 x.pattern) :=
      lt_digitCount_exactDigits (m := 401) rfl (by decide) (by decide) zero
    refine ofDecimal?_eq positive ?_ (by omega) ?_
    · intro empty
      rw [empty] at long
      exact absurd long (by decide)
    · rw [exactDigits_mul]
      exact nearestPattern_units x.pattern (tenTo_pos 1074)

/-- The exponent behind the digits. -/
def exactExponent : Exponent := ⟨'e', ['-'], ['1', '0', '7', '4']⟩

/-- A magnitude written out exactly. -/
def exactText (x : Double) : List Char :=
  digitChars (exactDigits 1074 x.pattern) ++ exactExponent.text

end Double

/-- Digits and an exponent make up a numeral. -/
theorem Numeral.read_exponent {digits : List Char} (inside : ∀ c ∈ digits, isDigit c = true) :
    read (digits ++ Double.exactExponent.text) = ⟨digits, none, some Double.exactExponent⟩ := by
  have whole : (digits ++ Double.exactExponent.text).takeWhile isDigit = digits :=
    takeWhile_run inside rfl
  simp only [read, whole, List.drop_left]
  rfl

/-- The exact text of a number is read as that number. -/
theorem Double.scan_exactText {x : Double} (positive : x.negative = false) :
    Numeral.scan x.exactText = .ok (.numeric x) x.exactText.length := by
  have read : Numeral.read x.exactText
      = ⟨digitChars (exactDigits 1074 x.pattern), none, some exactExponent⟩ :=
    Numeral.read_exponent fun c => isDigit_of_mem_digitChars
  have text : Numeral.text ⟨digitChars (exactDigits 1074 x.pattern), none, some exactExponent⟩
      = x.exactText := by
    simp [Numeral.text, Numeral.fractionText, exactText]
  have exponent : exactExponent.power - (([] : List Char).length : Int) = -(1074 : Nat) := by decide
  rw [Numeral.scan_eq_ok, read, text]
  refine ⟨rfl, by rw [List.drop_length]; rfl, ?_, rfl⟩
  show (ofDecimal? (digitsValue (digitChars (exactDigits 1074 x.pattern) ++ []))
    (exactExponent.power - (([] : List Char).length : Int))).map Kind.numeric = _
  rw [List.append_nil, digitsValue_digitChars, exponent, ofDecimal?_exactDigits positive]
  rfl

/-- To write numbers out exactly is a spelling that is read back. -/
def DecimalSpelling.exact : DecimalSpelling where
  spell := Double.exactText
  reads_back := by
    intro x positive
    have scan := Double.scan_exactText positive
    obtain ⟨c, more, digits, digit⟩ := digitChars_eq_cons (Double.exactDigits 1074 x.pattern)
    have split : x.exactText = c :: (more ++ Double.exactExponent.text) := by
      rw [Double.exactText, digits, List.cons_append]
    rw [split] at scan ⊢
    rw [Lexeme.scan, if_pos (startsNumber_of_isDigit digit _)]
    exact scan

end SqlSelect
