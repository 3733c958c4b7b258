import Mathlib.Data.Sign.Basic
import Frontend.Double.Text
import Frontend.Proofs.Decimal.Layout
import Frontend.Proofs.Decimal.Rounding

set_option autoImplicit false

namespace Frontend

namespace Double

open Decimal (DigitsText Numeral Signed)

-- The exact value of a finite number.
def value (d : Double) : ℚ :=
  (if d.isNegative then -1 else 1) * (d.significand * 2 ^ d.exponent)

-- Two digits at least, and more only if the first of them is no zero.
structure ExponentShows (exponent : ℤ) (negative : Bool) (digits : List Char) : Prop where
  sign : negative = decide (exponent < 0)
  value : Decimal.value digits = exponent.natAbs
  proper : DigitsText digits
  least : 2 ≤ digits.length
  leading : 2 < digits.length → digits.head? ≠ some '0'

-- A numeral shows digits at a power of ten. Read as a numeral its text gives back the numeral, so it can be taken apart in no
-- other way.
structure Shows (digits : ℕ) (exponent : ℤ) (numeral : Numeral) : Prop where
  reads : Decimal.readNumeral numeral.text = .ok (numeral, [])
  value : numeral.value = digits * 10 ^ (exponent - 5)
  scientific : numeral.exponent.isSome = true ↔ exponent < -4 ∨ 6 ≤ exponent
  exponent : ∀ negative written, numeral.exponent = some (negative, written) → ExponentShows exponent negative written
  fraction : Decimal.Tidy numeral.fraction

section Notations

theorem exponent_shows (exponent : ℤ) : ExponentShows exponent (decide (exponent < 0)) (Decimal.padded 2 exponent.natAbs) where
  sign := rfl
  value := Decimal.value_padded 2 exponent.natAbs
  proper := Decimal.padded_digits 2 exponent.natAbs
  least := Decimal.padded_least 2 exponent.natAbs
  leading := Decimal.padded_leading 2 exponent.natAbs (by decide)

theorem scientific_shows (digits : ℕ) (exponent : ℤ) (far : exponent < -4 ∨ 6 ≤ exponent) :
    ∃ numeral : Numeral, Decimal.trimFraction (Decimal.pointed 5 digits) ++ exponentText exponent = numeral.text ∧
      Shows digits exponent numeral := by
  obtain ⟨whole, fraction, trimmed, proper, tidy, value⟩ := Decimal.trimmed_pointed 5 digits
  have shown : ∀ negative written, some (decide (exponent < 0), Decimal.padded 2 exponent.natAbs) = some (negative, written) →
      ExponentShows exponent negative written := by
    rintro negative written ⟨⟩
    exact exponent_shows exponent
  refine ⟨⟨whole, fraction, some (decide (exponent < 0), Decimal.padded 2 exponent.natAbs)⟩, ?_, ?_, ?_, ?_, shown, tidy⟩
  · rw [trimmed, Numeral.text, List.append_assoc, Decimal.exponentPart, exponentText]
    simp
  · exact Decimal.numeral_reads _ proper tidy fun negative written known => (shown negative written known).proper
  · rw [Numeral.value, value, Decimal.exponent_value, zpow_sub₀ (by norm_num)]
    norm_num
    ring
  · exact ⟨fun _ => far, fun _ => rfl⟩

theorem positional_shows (digits places : ℕ) (exponent : ℤ) (near : ¬ (exponent < -4 ∨ 6 ≤ exponent))
    (left : (places : ℤ) = 5 - exponent) :
    ∃ numeral : Numeral, Decimal.trimFraction (Decimal.pointed places digits) = numeral.text ∧ Shows digits exponent numeral := by
  obtain ⟨whole, fraction, trimmed, proper, tidy, value⟩ := Decimal.trimmed_pointed places digits
  refine ⟨⟨whole, fraction, none⟩, ?_, ?_, ?_, ?_, ?_, tidy⟩
  · rw [trimmed, Numeral.text, Decimal.exponentPart, List.append_nil]
  · exact Decimal.numeral_reads _ proper tidy (by simp)
  · have power : exponent - 5 = -places := by omega
    rw [Numeral.value, value, Decimal.exponentValue, zpow_zero, mul_one, power, zpow_neg, zpow_natCast, div_eq_mul_inv]
  · simpa using near
  · simp

-- To round the fraction itself finds the digits that decided on the notation.
theorem round_again_digits (numerator denominator digits : ℕ) (exponent : ℤ) (proper : 0 < denominator)
    (rounded : Decimal.Rounded 6 (numerator / denominator) digits exponent) :
    Decimal.roundScaled numerator denominator (5 - exponent) = digits :=
  Decimal.round_scaled_rounded 6 numerator denominator digits exponent (by decide) proper rounded

theorem fraction_text_shows (numerator denominator digits : ℕ) (exponent : ℤ) (positive : 0 < numerator)
    (proper : 0 < denominator) (rounded : Decimal.Rounded 6 (numerator / denominator) digits exponent) :
    ∃ numeral : Numeral, fractionText numerator denominator = numeral.text ∧ Shows digits exponent numeral := by
  obtain ⟨sameDigits, sameExponent⟩ := Decimal.rounded_unique 6 _ _ _ _ _
    (Decimal.scientific_rounded 6 numerator denominator (by decide) positive proper) rounded
  simp only [fractionText, precision, leastPositional, sameDigits, sameExponent]
  by_cases far : exponent < -4 ∨ 6 ≤ exponent
  · rw [if_pos (by exact_mod_cast far)]
    exact scientific_shows digits exponent far
  · rw [if_neg (by exact_mod_cast far)]
    have left : ((((6 : ℕ) : ℤ) - 1 - exponent).toNat : ℤ) = 5 - exponent := by omega
    rw [left, round_again_digits numerator denominator digits exponent proper rounded]
    exact positional_shows digits _ exponent far left

end Notations

section Values

theorem denominator_positive (d : Double) : 0 < d.denominator :=
  Nat.pow_pos (by decide)

theorem significand_positive (d : Double) (nonzero : d.isZero = false) : 0 < d.significand := by
  rw [significand]
  by_cases subnormal : d.exponentField = 0
  · rw [if_pos subnormal]
    refine Nat.pos_of_ne_zero ?_
    intro none
    simp [isZero, subnormal, none] at nonzero
  · rw [if_neg subnormal]
    have unit : 0 < Nat.pow 2 52 := by decide
    omega

theorem numerator_positive (d : Double) (nonzero : d.isZero = false) : 0 < d.numerator :=
  Nat.mul_pos (significand_positive d nonzero) (Nat.pow_pos (by decide))

theorem fraction_value (d : Double) : (d.numerator : ℚ) / d.denominator = d.significand * 2 ^ d.exponent := by
  rw [numerator, denominator, Nat.pow_eq, Nat.pow_eq]
  push_cast
  rcases Int.le_total 0 d.exponent with whole | part
  · obtain ⟨n, power⟩ := Int.eq_ofNat_of_zero_le whole
    rw [power]
    simp
  · obtain ⟨n, power⟩ := Int.eq_ofNat_of_zero_le (Int.neg_nonneg_of_nonpos part)
    have exponent : d.exponent = -n := by omega
    rw [exponent]
    simp [div_eq_mul_inv]

theorem abs_value (d : Double) : |d.value| = d.numerator / d.denominator := by
  have nonnegative : (0 : ℚ) ≤ d.significand * 2 ^ d.exponent := by positivity
  rw [fraction_value, value]
  split
  · rw [neg_one_mul, abs_neg, abs_of_nonneg nonnegative]
  · rw [one_mul, abs_of_nonneg nonnegative]

theorem sign_value (d : Double) (nonzero : d.isZero = false) :
    (SignType.sign d.value : ℚ) = if d.isNegative then -1 else 1 := by
  have significand : (0 : ℚ) < d.significand := by exact_mod_cast significand_positive d nonzero
  have positive : (0 : ℚ) < d.significand * 2 ^ d.exponent := by positivity
  rw [value]
  split
  · rw [sign_neg (by linarith)]
    simp
  · rw [sign_pos (by linarith)]
    simp

end Values

-- The sign stands in front of the text of the fraction.
theorem text_signed (d : Double) (number : d.isNaN = false) (finite : d.isInfinite = false) (nonzero : d.isZero = false)
    (numeral : Numeral) (written : fractionText d.numerator d.denominator = numeral.text) :
    d.text.toList = Signed.text ⟨d.isNegative, numeral⟩ := by
  simp only [text, number, finite, nonzero, Bool.false_eq_true, if_false, String.toList_append, String.toList_ofList, written,
    Signed.text]
  cases d.isNegative <;> rfl

theorem text_denotes_rounded (d : Double) (number : d.isNaN = false) (finite : d.isInfinite = false)
    (nonzero : d.isZero = false) :
    ∃ (digits : ℕ) (exponent : ℤ), Decimal.Rounded 6 |d.value| digits exponent ∧
      (∀ other otherExponent, Decimal.Rounded 6 |d.value| other otherExponent → other = digits ∧ otherExponent = exponent) ∧
      100000 ≤ digits ∧ digits ≤ 999999 ∧
      (∃ signed : Signed, d.text.toList = signed.text ∧
        signed.value = SignType.sign d.value * (digits * 10 ^ (exponent - 5)) ∧ Shows digits exponent signed.numeral) ∧
      Decimal.roundScaled d.numerator d.denominator (5 - exponent) = digits := by
  have proper := denominator_positive d
  have positive := numerator_positive d nonzero
  have rounded := Decimal.scientific_rounded 6 d.numerator d.denominator (by decide) positive proper
  rw [abs_value]
  generalize (Decimal.scientific 6 d.numerator d.denominator).digits = digits at rounded
  generalize (Decimal.scientific 6 d.numerator d.denominator).exponent = exponent at rounded
  obtain ⟨least, most⟩ := Decimal.rounded_digits 6 _ digits exponent rounded (by decide)
  obtain ⟨numeral, written, shows⟩ := fraction_text_shows _ _ digits exponent positive proper rounded
  refine ⟨digits, exponent, rounded, ?_, least, Nat.le_of_lt_succ most, ⟨⟨d.isNegative, numeral⟩, ?_, ?_, shows⟩, ?_⟩
  · intro other otherExponent again
    exact Decimal.rounded_unique 6 _ _ _ _ _ again rounded
  · exact text_signed d number finite nonzero numeral written
  · rw [Signed.value, sign_value d nonzero, shows.value]
  · exact round_again_digits d.numerator d.denominator digits exponent proper rounded

-- Half a unit below a million: the tie goes to the even neighbour, which has one digit too many for positional notation.
def almostMillion : Double := ⟨0x412e847f00000000⟩

theorem almost_million_value : |almostMillion.value| = 1999999 / 2 := by
  have numerator : almostMillion.numerator = 1999999 * 2 ^ 32 := by decide
  have denominator : almostMillion.denominator = 2 ^ 33 := by decide
  rw [abs_value, numerator, denominator]
  norm_num

theorem almost_million_rounded : Decimal.Rounded 6 |almostMillion.value| 100000 6 := by
  rw [almost_million_value]
  refine .carried 5 ?_ ?_
  · norm_num [Decimal.InDecade]
  · refine ⟨?_, fun _ => ?_⟩
    · norm_num
    · exact Nat.even_pow.mpr ⟨by decide, by decide⟩

theorem text_denotes_rounded_almost_million :
    almostMillion.isNaN = false ∧ almostMillion.isInfinite = false ∧ almostMillion.isZero = false ∧
      ∃ signed : Signed, almostMillion.text.toList = signed.text ∧ Shows 100000 6 signed.numeral := by
  have number : almostMillion.isNaN = false := by decide
  have finite : almostMillion.isInfinite = false := by decide
  have nonzero : almostMillion.isZero = false := by decide
  obtain ⟨digits, exponent, _, unique, _, _, ⟨signed, written, _, shows⟩, _⟩ :=
    text_denotes_rounded almostMillion number finite nonzero
  obtain ⟨rfl, rfl⟩ := unique 100000 6 almost_million_rounded
  exact ⟨number, finite, nonzero, signed, written, shows⟩

end Double

end Frontend
