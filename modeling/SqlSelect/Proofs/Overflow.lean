/-
Which decimals have no finite double.

The largest double has 53 bits in its significand and ends where two to the
power 1024 would be next. What is nearer to it than to that power is rounded
to it, and what is half way in between goes to the even of the two, which is
the power. So a decimal has a double nearest to it exactly if it is below the
middle (`Double.ofDecimal?_eq_none_iff`).

# Where a pattern is computed

The nearest pattern of a quotient comes from cutting the quotient down to 53
bits and rounding what is left. `nearestPattern_lt_iff` says which quotients
get a pattern below those of a power of two. It has three cases, by how many
bits are cut: fewer than for the last exponent below the power, exactly as
many, where the middle decides, or more.

# Where none is

Exponents of very large or very small decimals are decided by the number of
digits alone. That makes no difference, since such decimals are far from the
middle (`not_overflows_of_small`, `overflows_of_large`).
-/
import SqlSelect.Proofs.Print.Decimal

namespace SqlSelect.Double

-- =========================================================== rounding

/-- Above an odd number the middle is rounded up. -/
theorem lt_roundHalfEven_iff {num den k : Nat} (positive : 0 < den) (odd : k % 2 = 1) :
    k < roundHalfEven num den ↔ (2 * k + 1) * den ≤ 2 * num := by
  have split : den * (num / den) + num % den = num := Nat.div_add_mod num den
  have rest : num % den < den := Nat.mod_lt num positive
  unfold roundHalfEven
  simp only
  generalize num / den = quotient at split
  generalize num % den = left at split rest
  have twice : 2 * num = 2 * (den * quotient) + 2 * left := by omega
  rw [Nat.add_mul, Nat.mul_assoc, Nat.one_mul, Nat.mul_comm k, twice]
  rcases Nat.lt_trichotomy quotient k with below | same | above
  · have next : den * quotient + den ≤ den * k := by
      rw [← Nat.mul_succ]
      exact Nat.mul_le_mul_left den below
    split <;> omega
  · subst same
    split <;> omega
  · have next : den * k + den ≤ den * quotient := by
      rw [← Nat.mul_succ]
      exact Nat.mul_le_mul_left den above
    split <;> omega

/-- What is not below a whole number is not rounded below it. -/
theorem le_roundHalfEven {num den k : Nat} (positive : 0 < den) (h : k * den ≤ num) :
    k ≤ roundHalfEven num den := by
  have whole : k ≤ num / den := (Nat.le_div_iff_mul_le positive).2 h
  unfold roundHalfEven
  simp only
  split <;> omega

/-- And what is below one is not rounded above it. -/
theorem roundHalfEven_le {num den k : Nat} (positive : 0 < den) (h : num < k * den) :
    roundHalfEven num den ≤ k := by
  have whole : num / den < k := (Nat.div_lt_iff_lt_mul positive).2 h
  unfold roundHalfEven
  simp only
  split <;> omega

theorem twoTo_pos (n : Nat) : 0 < twoTo n := Nat.two_pow_pos n

theorem twoTo_lt {n m : Nat} (h : n < m) : twoTo n < twoTo m := Nat.pow_lt_pow_right (by decide) h

theorem twoTo_le {n m : Nat} (h : n ≤ m) : twoTo n ≤ twoTo m := Nat.pow_le_pow_right (by decide) h

/-- Powers of two multiply. -/
theorem twoTo_add (n m : Nat) : twoTo (n + m) = twoTo n * twoTo m := Nat.pow_add 2 n m

/-- The significand is a quotient of at most 53 bits, and of no less where
bits are cut off. -/
theorem shift_bounds (num : Nat) {den : Nat} (positive : 0 < den) :
    num < twoTo 53 * (den * twoTo ((num / den).log2 - 52))
      ∧ ((num / den).log2 - 52 = 0
        ∨ twoTo 52 * (den * twoTo ((num / den).log2 - 52)) ≤ num) := by
  have floor : num / den * den ≤ num := Nat.div_mul_le_self num den
  have ceiling : num < (num / den + 1) * den := Nat.lt_mul_of_div_lt (Nat.lt_succ_self _) positive
  generalize num / den = quotient at floor ceiling
  constructor
  · have short : quotient + 1 ≤ twoTo 53 * twoTo (quotient.log2 - 52) :=
      calc quotient + 1 ≤ twoTo (quotient.log2 + 1) := Nat.lt_log2_self
        _ ≤ twoTo (53 + (quotient.log2 - 52)) := twoTo_le (by omega)
        _ = twoTo 53 * twoTo (quotient.log2 - 52) := twoTo_add 53 _
    calc num < (quotient + 1) * den := ceiling
      _ ≤ twoTo 53 * twoTo (quotient.log2 - 52) * den := Nat.mul_le_mul_right den short
      _ = twoTo 53 * (den * twoTo (quotient.log2 - 52)) := by
        rw [Nat.mul_assoc, Nat.mul_comm den]
  · by_cases cut : quotient.log2 - 52 = 0
    · exact Or.inl cut
    · right
      have filled : quotient ≠ 0 := by
        rintro rfl
        exact cut rfl
      have long : twoTo 52 * twoTo (quotient.log2 - 52) ≤ quotient :=
        calc twoTo 52 * twoTo (quotient.log2 - 52) = twoTo (52 + (quotient.log2 - 52)) :=
              (twoTo_add 52 _).symm
          _ = twoTo quotient.log2 := by
            congr 1
            omega
          _ ≤ quotient := Nat.log2_self_le filled
      calc twoTo 52 * (den * twoTo (quotient.log2 - 52))
          = twoTo 52 * twoTo (quotient.log2 - 52) * den := by rw [Nat.mul_assoc, Nat.mul_comm den]
        _ ≤ quotient * den := Nat.mul_le_mul_right den long
        _ ≤ num := floor

/-- Which patterns are below those of a power of two: the magnitudes that are
below the middle between that power and the number before it. -/
theorem nearestPattern_lt_iff {num den : Nat} (positive : 0 < den) (n : Nat) :
    nearestPattern num den < (n + 3) * twoTo 52 ↔ num < (twoTo 54 - 1) * (den * twoTo n) := by
  obtain ⟨short, long⟩ := shift_bounds num positive
  unfold nearestPattern
  simp only
  generalize (num / den).log2 - 52 = shift at short long
  have scaled : 0 < den * twoTo shift := Nat.mul_pos positive (twoTo_pos shift)
  have bit : 0 < twoTo 52 := twoTo_pos 52
  have carry : twoTo 53 = 2 * twoTo 52 := rfl
  have bound : (n + 3) * twoTo 52 = n * twoTo 52 + 3 * twoTo 52 := Nat.add_mul n 3 _
  rcases Nat.lt_trichotomy shift (n + 1) with below | same | above
  -- fewer bits are cut: even a significand that is rounded up stays below
  · have power : twoTo shift ≤ twoTo n := twoTo_le (by omega)
    have rounded : roundHalfEven num (den * twoTo shift) ≤ twoTo 53 :=
      roundHalfEven_le scaled short
    have exponent : shift * twoTo 52 ≤ n * twoTo 52 := Nat.mul_le_mul_right _ (by omega)
    have small : num < (twoTo 54 - 1) * (den * twoTo n) :=
      calc num < twoTo 53 * (den * twoTo shift) := short
        _ ≤ twoTo 53 * (den * twoTo n) :=
          Nat.mul_le_mul_left _ (Nat.mul_le_mul_left den power)
        _ ≤ (twoTo 54 - 1) * (den * twoTo n) := Nat.mul_le_mul_right _ (by decide)
    exact iff_of_true (by omega) small
  · -- the last exponent below the power: from the middle on it is rounded up
    subst same
    have up : twoTo 53 - 1 < roundHalfEven num (den * twoTo (n + 1))
        ↔ (2 * (twoTo 53 - 1) + 1) * (den * twoTo (n + 1)) ≤ 2 * num :=
      lt_roundHalfEven_iff scaled (by decide)
    have twice : (2 * (twoTo 53 - 1) + 1) * (den * twoTo (n + 1))
        = 2 * ((twoTo 54 - 1) * (den * twoTo n)) := by
      rw [twoTo_add, ← Nat.mul_assoc den, ← Nat.mul_assoc, Nat.mul_comm _ (twoTo 1)]
      rfl
    rw [twice] at up
    have exponent : (n + 1) * twoTo 52 = n * twoTo 52 + twoTo 52 := Nat.succ_mul n _
    omega
  -- more bits are cut: even the least significand is not below
  · have cut : twoTo 52 * (den * twoTo shift) ≤ num := long.resolve_left (by omega)
    have rounded : twoTo 52 ≤ roundHalfEven num (den * twoTo shift) :=
      le_roundHalfEven scaled cut
    have exponent : (n + 2) * twoTo 52 ≤ shift * twoTo 52 := Nat.mul_le_mul_right _ above
    have power : twoTo 2 * twoTo n ≤ twoTo shift := by
      rw [← twoTo_add, Nat.add_comm 2]
      exact twoTo_le above
    have large : (twoTo 54 - 1) * (den * twoTo n) ≤ num :=
      calc (twoTo 54 - 1) * (den * twoTo n)
          ≤ twoTo 54 * (den * twoTo n) := Nat.mul_le_mul_right _ (Nat.sub_le _ _)
        _ = twoTo 52 * (den * (twoTo 2 * twoTo n)) := by
          rw [Nat.mul_left_comm den, ← Nat.mul_assoc (twoTo 52)]
          rfl
        _ ≤ twoTo 52 * (den * twoTo shift) :=
          Nat.mul_le_mul_left _ (Nat.mul_le_mul_left den power)
        _ ≤ num := cut
    have split : (n + 2) * twoTo 52 = n * twoTo 52 + 2 * twoTo 52 := Nat.add_mul n 2 _
    exact iff_of_false (by omega) (Nat.not_lt.2 large)

-- =========================================================== decimals

/-- A decimal is too large for a double: it is not below the middle between
the largest one and two to the power 1024. -/
def Overflows (digits : Nat) (exponent : Int) : Prop :=
  (twoTo 1024 - twoTo 970) * tenTo (-exponent).toNat ≤ digits * tenTo exponent.toNat

/-- The middle as a number of units. -/
theorem middle_eq : (twoTo 1024 - twoTo 970) * twoTo 1074 = (twoTo 54 - 1) * twoTo 2044 := by
  have high : twoTo 1024 = twoTo (54 + 970) := congrArg twoTo (by decide)
  have units : twoTo 2044 = twoTo (970 + 1074) := congrArg twoTo (by decide)
  rw [high, units, twoTo_add, twoTo_add, ← Nat.sub_one_mul, Nat.mul_assoc]

/-- Where the nearest pattern is computed it tells which decimals are too
large. -/
theorem patternBound_le_iff {digits : Nat} {exponent : Int} :
    patternBound ≤ nearestPattern (digits * tenTo exponent.toNat * twoTo 1074)
        (tenTo (-exponent).toNat)
      ↔ Overflows digits exponent := by
  have bound : patternBound = (2044 + 3) * twoTo 52 := rfl
  have scaled : (twoTo 54 - 1) * (tenTo (-exponent).toNat * twoTo 2044)
      = (twoTo 1024 - twoTo 970) * tenTo (-exponent).toNat * twoTo 1074 := by
    rw [Nat.mul_comm (tenTo _), ← Nat.mul_assoc, ← middle_eq, Nat.mul_right_comm]
  rw [bound, ← Nat.not_lt, nearestPattern_lt_iff (tenTo_pos _), Nat.not_lt, scaled]
  exact Nat.mul_le_mul_right_iff (twoTo_pos 1074)

theorem digitCount_pos (digits : Nat) : 0 < digitCount digits :=
  List.length_pos_iff.2 Nat.toDigits_ne_nil

/-- A number is below the power of ten with as many zeros as it has digits. -/
theorem lt_tenTo_digitCount (digits : Nat) : digits < tenTo (digitCount digits) :=
  (Nat.length_toDigits_le_iff (by decide) (digitCount_pos digits)).1 (Nat.le_refl _)

/-- The middle is a positive number. -/
theorem middle_pos : 0 < twoTo 1024 - twoTo 970 :=
  Nat.sub_pos_of_lt (twoTo_lt (by decide))

/-- A decimal that is far below one does not overflow. -/
theorem not_overflows_of_small {digits : Nat} {exponent : Int}
    (small : exponent + digitCount digits < -400) : ¬Overflows digits exponent := by
  have places : digitCount digits ≤ (-exponent).toNat := by omega
  have whole : exponent.toNat = 0 := by omega
  have below : digits < (twoTo 1024 - twoTo 970) * tenTo (-exponent).toNat :=
    calc digits < tenTo (digitCount digits) := lt_tenTo_digitCount digits
      _ ≤ tenTo (-exponent).toNat := Nat.pow_le_pow_right (by decide) places
      _ ≤ (twoTo 1024 - twoTo 970) * tenTo (-exponent).toNat :=
        Nat.le_mul_of_pos_left _ middle_pos
  unfold Overflows
  rw [whole]
  show ¬_ ≤ digits * 1
  omega

/-- A decimal digit is worth more than three bits. -/
theorem twoTo_le_tenTo (n : Nat) : twoTo (3 * n) ≤ tenTo n :=
  calc twoTo (3 * n) = Nat.pow (twoTo 3) n := Nat.pow_mul 2 3 n
    _ ≤ tenTo n := Nat.pow_le_pow_left (by decide) n

/-- A decimal with more than 400 zeros does. -/
theorem overflows_of_large {digits : Nat} {exponent : Int} (filled : digits ≠ 0)
    (large : 400 < exponent) : Overflows digits exponent := by
  have places : (-exponent).toNat = 0 := by omega
  unfold Overflows
  rw [places, show tenTo 0 = 1 from rfl, Nat.mul_one]
  calc twoTo 1024 - twoTo 970 ≤ twoTo 1024 := Nat.sub_le _ _
    _ ≤ twoTo (3 * exponent.toNat) := twoTo_le (by omega)
    _ ≤ tenTo exponent.toNat := twoTo_le_tenTo _
    _ ≤ digits * tenTo exponent.toNat :=
      Nat.le_mul_of_pos_left _ (Nat.pos_of_ne_zero filled)

/-- A decimal has no finite double nearest to it exactly if it is too large. -/
theorem ofDecimal?_eq_none_iff {digits : Nat} {exponent : Int} :
    ofDecimal? digits exponent = none ↔ Overflows digits exponent := by
  unfold ofDecimal?
  simp only [dite_eq_right_iff, reduceCtorEq, imp_false, Nat.not_lt]
  split
  next low =>
    have finite : ¬Overflows digits exponent := by
      rcases low with rfl | small
      · have some_ := Nat.mul_pos middle_pos (tenTo_pos (-exponent).toNat)
        unfold Overflows
        omega
      · exact not_overflows_of_small small
    exact iff_of_false (by decide) finite
  next high =>
    split
    next large =>
      have filled : digits ≠ 0 := fun zero => high (Or.inl zero)
      exact iff_of_true (Nat.le_refl _) (overflows_of_large filled large)
    next => exact patternBound_le_iff

end SqlSelect.Double
