import Mathlib.Algebra.Order.Field.Power
import Mathlib.Algebra.Ring.Parity
import Mathlib.Data.Rat.Cast.Order
import Mathlib.Tactic.FieldSimp
import Mathlib.Tactic.Linarith
import Mathlib.Tactic.NormNum
import Mathlib.Tactic.Positivity
import Mathlib.Tactic.Ring
import Frontend.Decimal.Rounding

set_option autoImplicit false

namespace Frontend.Decimal

-- A whole number is nearest, and even if its neighbour is as near.
def Nearest (q : ℚ) (n : ℕ) : Prop := |q - n| ≤ 1 / 2 ∧ (|q - n| = 1 / 2 → Even n)

def InDecade (q : ℚ) (decade : ℤ) : Prop := (10 : ℚ) ^ decade ≤ q ∧ q < (10 : ℚ) ^ (decade + 1)

-- Significant digits as a whole number, and the power of ten of the first of them. Digits that are rounded up to a power of
-- ten have one too many, and move to the next decade.
inductive Rounded (precision : ℕ) (q : ℚ) : ℕ → ℤ → Prop where
  | within (units : ℕ) (decade : ℤ) (inside : InDecade q decade) (nearest : Nearest (q * 10 ^ (precision - 1 - decade)) units)
      (few : units < 10 ^ precision) : Rounded precision q units decade
  | carried (decade : ℤ) (inside : InDecade q decade) (nearest : Nearest (q * 10 ^ (precision - 1 - decade)) (10 ^ precision)) :
      Rounded precision q (10 ^ (precision - 1)) (decade + 1)

section Nearest

theorem nearest_bounds (q : ℚ) (n : ℕ) (nearest : Nearest q n) : (n : ℚ) - 1 / 2 ≤ q ∧ q ≤ n + 1 / 2 := by
  have bounds := abs_le.mp nearest.1
  constructor <;> linarith

theorem nearest_inside (q : ℚ) (n : ℕ) (above : (n : ℚ) - 1 / 2 < q) (below : q < n + 1 / 2) : Nearest q n := by
  have close : |q - n| < 1 / 2 := abs_lt.mpr ⟨by linarith, by linarith⟩
  exact ⟨close.le, fun tie => absurd tie close.ne⟩

-- Of two different numbers that are both nearest, one is the successor of the other, and both are even.
theorem nearest_not_successor (q : ℚ) (m n : ℕ) (nearM : Nearest q m) (nearN : Nearest q n) : ¬ m < n := by
  intro less
  have stepUp : (m : ℚ) + 1 ≤ n := by exact_mod_cast less
  have boundM := nearest_bounds q m nearM
  have boundN := nearest_bounds q n nearN
  have successor : n = m + 1 := by
    have equal : (n : ℚ) = m + 1 := by linarith
    exact_mod_cast equal
  have tieM : |q - m| = 1 / 2 := by
    rw [abs_of_nonneg (by linarith)]
    linarith
  have tieN : |q - n| = 1 / 2 := by
    rw [abs_of_nonpos (by linarith)]
    linarith
  have even := nearN.2 tieN
  rw [successor, Nat.even_add_one] at even
  exact even (nearM.2 tieM)

theorem nearest_unique (q : ℚ) (m n : ℕ) (nearM : Nearest q m) (nearN : Nearest q n) : m = n := by
  have notLess := nearest_not_successor q m n nearM nearN
  have notMore := nearest_not_successor q n m nearN nearM
  omega

theorem nearest_le (q : ℚ) (n bound : ℕ) (nearest : Nearest q n) (below : q < bound) : n ≤ bound := by
  by_contra more
  have next : (bound : ℚ) + 1 ≤ n := by exact_mod_cast Nat.lt_of_not_le more
  have bounds := nearest_bounds q n nearest
  linarith

theorem nearest_ge (q : ℚ) (n bound : ℕ) (nearest : Nearest q n) (above : bound ≤ q) : bound ≤ n := by
  by_contra less
  have next : (n : ℚ) + 1 ≤ bound := by exact_mod_cast Nat.lt_of_not_le less
  have bounds := nearest_bounds q n nearest
  linarith

theorem quotient_excess (numerator denominator : ℕ) (positive : (0 : ℚ) < denominator) :
    (numerator : ℚ) / denominator = (numerator / denominator : ℕ) + (numerator % denominator : ℕ) / denominator := by
  have division : (numerator : ℚ) = denominator * (numerator / denominator : ℕ) + (numerator % denominator : ℕ) := by
    exact_mod_cast (Nat.div_add_mod numerator denominator).symm
  rw [div_eq_iff positive.ne', add_mul, div_mul_cancel₀ _ positive.ne']
  linarith

theorem below_half (part whole : ℕ) (positive : (0 : ℚ) < whole) : (part : ℚ) / whole < 1 / 2 ↔ 2 * part < whole := by
  rw [div_lt_div_iff₀ positive two_pos, one_mul, mul_comm]
  exact_mod_cast Iff.rfl

theorem above_half (part whole : ℕ) (positive : (0 : ℚ) < whole) : (1 : ℚ) / 2 < part / whole ↔ whole < 2 * part := by
  rw [div_lt_div_iff₀ two_pos positive, one_mul, mul_comm]
  exact_mod_cast Iff.rfl

theorem round_div_nearest (numerator denominator : ℕ) (positive : 0 < denominator) :
    Nearest (numerator / denominator) (roundDiv numerator denominator) := by
  have positiveRat : (0 : ℚ) < denominator := by exact_mod_cast positive
  have start : (0 : ℚ) ≤ (numerator % denominator : ℕ) / denominator := by positivity
  have finish : ((numerator % denominator : ℕ) : ℚ) / denominator < 1 := by
    rw [div_lt_one positiveRat]
    exact_mod_cast Nat.mod_lt numerator positive
  rw [quotient_excess numerator denominator positiveRat, roundDiv]
  by_cases less : 2 * (numerator % denominator) < denominator
  · rw [if_pos less]
    have half := (below_half _ _ positiveRat).mpr less
    exact nearest_inside _ _ (by linarith) (by linarith)
  · rw [if_neg less]
    by_cases more : denominator < 2 * (numerator % denominator)
    · rw [if_pos more]
      have half := (above_half _ _ positiveRat).mpr more
      refine nearest_inside _ _ ?_ ?_ <;> push_cast <;> linarith
    · rw [if_neg more]
      have notLess := mt (below_half _ _ positiveRat).mp less
      have notMore := mt (above_half _ _ positiveRat).mp more
      have half : ((numerator % denominator : ℕ) : ℚ) / denominator = 1 / 2 := by linarith
      rw [half]
      by_cases even : numerator / denominator % 2 = 0
      · rw [if_pos even]
        exact ⟨by norm_num, fun _ => Nat.even_iff.mpr even⟩
      · rw [if_neg even]
        exact ⟨by norm_num, fun _ => Nat.even_iff.mpr (by omega)⟩

theorem round_scaled_nearest (numerator denominator : ℕ) (places : ℤ) (positive : 0 < denominator) :
    Nearest (numerator / denominator * 10 ^ places) (roundScaled numerator denominator places) := by
  cases places with
  | ofNat places =>
      have nearest := round_div_nearest (numerator * 10 ^ places) denominator positive
      have scaled : (numerator : ℚ) / denominator * 10 ^ (Int.ofNat places) = (numerator * 10 ^ places : ℕ) / denominator := by
        rw [Int.ofNat_eq_natCast, zpow_natCast]
        push_cast
        ring
      rw [scaled]
      exact nearest
  | negSucc places =>
      have nearest := round_div_nearest numerator (denominator * 10 ^ (places + 1)) (by positivity)
      have scaled : (numerator : ℚ) / denominator * 10 ^ (Int.negSucc places) =
          numerator / (denominator * 10 ^ (places + 1) : ℕ) := by
        rw [zpow_negSucc]
        push_cast
        rw [div_mul_eq_div_div, div_eq_mul_inv _ ((10 : ℚ) ^ (places + 1))]
      rw [scaled]
      exact nearest

end Nearest

section Decades

theorem decades_above_bounds (n : ℕ) (positive : 0 < n) : 10 ^ decadesAbove n ≤ n ∧ n < 10 ^ (decadesAbove n + 1) := by
  induction n using decadesAbove.induct with
  | case1 n small =>
      rw [decadesAbove, if_pos small]
      exact ⟨positive, small⟩
  | case2 n large ih =>
      obtain ⟨low, high⟩ := ih (by omega)
      rw [decadesAbove, if_neg large, pow_succ 10 (decadesAbove (n / 10) + 1), pow_succ 10 (decadesAbove (n / 10))]
      rw [pow_succ] at high
      omega

-- Each step multiplies a fraction below one by ten, so the first one that is not below one is below ten.
theorem decades_below_bounds (numerator denominator : ℕ) (positive : 0 < numerator) (below : numerator < denominator * 10) :
    denominator ≤ numerator * 10 ^ decadesBelow numerator denominator ∧
      numerator * 10 ^ decadesBelow numerator denominator < denominator * 10 := by
  induction numerator using decadesBelow.induct denominator with
  | case1 numerator done =>
      rw [decadesBelow, if_pos done, pow_zero, mul_one]
      omega
  | case2 numerator more ih =>
      have bounds := ih (by omega) (by omega)
      rw [decadesBelow, if_neg more, pow_succ, mul_comm (10 ^ _) 10, ← mul_assoc]
      exact bounds

theorem decade_inside (numerator denominator : ℕ) (positive : 0 < numerator) (proper : 0 < denominator) :
    InDecade (numerator / denominator) (decade numerator denominator) := by
  have properRat : (0 : ℚ) < denominator := by exact_mod_cast proper
  rw [decade]
  by_cases whole : denominator ≤ numerator
  · rw [if_pos whole]
    obtain ⟨low, high⟩ := decades_above_bounds (numerator / denominator) (Nat.div_pos whole proper)
    have lowProduct : 10 ^ decadesAbove (numerator / denominator) * denominator ≤ numerator :=
      (Nat.le_div_iff_mul_le proper).mp low
    have highProduct : numerator < 10 ^ (decadesAbove (numerator / denominator) + 1) * denominator :=
      (Nat.div_lt_iff_lt_mul proper).mp high
    constructor
    · rw [zpow_natCast, le_div_iff₀ properRat]
      exact_mod_cast lowProduct
    · rw [div_lt_iff₀ properRat]
      exact_mod_cast highProduct
  · rw [if_neg whole]
    obtain ⟨low, high⟩ := decades_below_bounds numerator denominator positive (by omega)
    have power : (0 : ℚ) < 10 ^ decadesBelow numerator denominator := by positivity
    constructor
    · rw [zpow_neg, zpow_natCast, inv_le_iff_one_le_mul₀ power, div_mul_eq_mul_div, one_le_div properRat]
      exact_mod_cast low
    · rw [zpow_add₀ (by norm_num), zpow_neg, zpow_natCast, zpow_one, inv_mul_eq_div, lt_div_iff₀ power, div_mul_eq_mul_div,
        div_lt_iff₀ properRat, mul_comm (10 : ℚ)]
      exact_mod_cast high

theorem decade_unique (q : ℚ) (first second : ℤ) (inFirst : InDecade q first) (inSecond : InDecade q second) : first = second := by
  have up := (zpow_lt_zpow_iff_right₀ (by norm_num : (1 : ℚ) < 10)).mp (lt_of_le_of_lt inFirst.1 inSecond.2)
  have down := (zpow_lt_zpow_iff_right₀ (by norm_num : (1 : ℚ) < 10)).mp (lt_of_le_of_lt inSecond.1 inFirst.2)
  omega

end Decades

section Rounded

theorem ten_power (n : ℕ) (first second : ℤ) (sum : first + second = n) : ((10 ^ n : ℕ) : ℚ) = 10 ^ first * 10 ^ second := by
  rw [← zpow_add₀ (by norm_num), sum, zpow_natCast, Nat.cast_pow, Nat.cast_ofNat]

theorem scale_decade (precision : ℕ) (q : ℚ) (decade : ℤ) (inside : InDecade q decade) (some : 0 < precision) :
    ((10 ^ (precision - 1) : ℕ) : ℚ) ≤ q * 10 ^ (precision - 1 - decade : ℤ) ∧
      q * 10 ^ (precision - 1 - decade : ℤ) < (10 ^ precision : ℕ) := by
  have power : (0 : ℚ) < 10 ^ (precision - 1 - decade : ℤ) := by positivity
  rw [ten_power (precision - 1) decade (precision - 1 - decade) (by omega),
    ten_power precision (decade + 1) (precision - 1 - decade) (by omega)]
  exact ⟨mul_le_mul_of_nonneg_right inside.1 power.le, mul_lt_mul_of_pos_right inside.2 power⟩

theorem rounded_digits (precision : ℕ) (q : ℚ) (digits : ℕ) (exponent : ℤ) (rounded : Rounded precision q digits exponent)
    (some : 0 < precision) : 10 ^ (precision - 1) ≤ digits ∧ digits < 10 ^ precision := by
  cases rounded with
  | within _ _ inside nearest few =>
      exact ⟨nearest_ge _ _ _ nearest (scale_decade precision q exponent inside some).1, few⟩
  | carried decade inside nearest => exact ⟨le_refl _, Nat.pow_lt_pow_right (by decide) (by omega)⟩

theorem rounded_unique (precision : ℕ) (q : ℚ) (first second : ℕ) (exponent other : ℤ)
    (rounded : Rounded precision q first exponent) (again : Rounded precision q second other) :
    first = second ∧ exponent = other := by
  cases rounded with
  | within _ _ inside nearest few =>
      cases again with
      | within _ _ insideAgain nearestAgain fewAgain =>
          obtain rfl := decade_unique q _ _ inside insideAgain
          exact ⟨nearest_unique _ _ _ nearest nearestAgain, rfl⟩
      | carried decade insideAgain nearestAgain =>
          obtain rfl := decade_unique q _ _ inside insideAgain
          have equal := nearest_unique _ _ _ nearest nearestAgain
          omega
  | carried decade inside nearest =>
      cases again with
      | within _ _ insideAgain nearestAgain fewAgain =>
          obtain rfl := decade_unique q _ _ inside insideAgain
          have equal := nearest_unique _ _ _ nearest nearestAgain
          omega
      | carried decadeAgain insideAgain nearestAgain =>
          obtain rfl := decade_unique q _ _ inside insideAgain
          exact ⟨rfl, rfl⟩

-- Digits that were carried are also nearest in units of the next decade: less than half a tenth is missing.
theorem rounded_nearest (precision : ℕ) (q : ℚ) (digits : ℕ) (exponent : ℤ) (rounded : Rounded precision q digits exponent)
    (some : 0 < precision) : Nearest (q * 10 ^ (precision - 1 - exponent : ℤ)) digits := by
  cases rounded with
  | within _ _ inside nearest few => exact nearest
  | carried decade inside nearest =>
      have low := (nearest_bounds _ _ nearest).1
      have high := (scale_decade precision q decade inside some).2
      have tenth : q * 10 ^ (precision - 1 - decade : ℤ) = 10 * (q * 10 ^ (precision - 1 - (decade + 1) : ℤ)) := by
        rw [mul_left_comm, ← zpow_one_add₀ (by norm_num)]
        congr 2
        ring
      have power : ((10 ^ precision : ℕ) : ℚ) = 10 * (10 ^ (precision - 1) : ℕ) := by
        exact_mod_cast (by rw [← pow_succ', Nat.sub_add_cancel some] : 10 ^ precision = 10 * 10 ^ (precision - 1))
      rw [tenth, power] at low high
      exact nearest_inside _ _ (by linarith) (by linarith)

theorem scientific_rounded (precision numerator denominator : ℕ) (some : 0 < precision) (positive : 0 < numerator)
    (proper : 0 < denominator) :
    Rounded precision (numerator / denominator) (scientific precision numerator denominator).digits
      (scientific precision numerator denominator).exponent := by
  have inside := decade_inside numerator denominator positive proper
  have nearest := round_scaled_nearest numerator denominator (precision - 1 - decade numerator denominator) proper
  have most := nearest_le _ _ _ nearest (scale_decade precision _ _ inside some).2
  rw [scientific]
  by_cases carry : roundScaled numerator denominator (precision - 1 - decade numerator denominator) = 10 ^ precision
  · have tenth : 10 ^ precision / 10 = 10 ^ (precision - 1) := Nat.pow_div some (by decide)
    rw [carry] at nearest
    simp only [Nat.pow_eq, carry, tenth]
    exact .carried _ inside nearest
  · simp only [Nat.pow_eq, if_neg carry]
    exact .within _ _ inside nearest (lt_of_le_of_ne most carry)

-- To round a second time, to the places that the digits leave, does not change the digits.
theorem round_scaled_rounded (precision numerator denominator digits : ℕ) (exponent : ℤ) (some : 0 < precision)
    (proper : 0 < denominator) (rounded : Rounded precision (numerator / denominator) digits exponent) :
    roundScaled numerator denominator (precision - 1 - exponent) = digits :=
  nearest_unique _ _ _ (round_scaled_nearest numerator denominator _ proper) (rounded_nearest _ _ _ _ rounded some)

end Rounded

end Frontend.Decimal
