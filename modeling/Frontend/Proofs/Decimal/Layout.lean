import Mathlib.Data.List.DropRight
import Mathlib.Data.Rat.Cast.Order
import Mathlib.Tactic.FieldSimp
import Mathlib.Tactic.Positivity
import Mathlib.Tactic.Ring
import Frontend.Decimal.Rounding
import Frontend.Proofs.Decimal.Reader

set_option autoImplicit false

namespace Frontend.Decimal

-- What stands behind the digits of the whole part.
def fractionPart : Option (List Char) → List Char
  | none => []
  | some digits => '.' :: digits

def fractionValue : Option (List Char) → ℚ
  | none => 0
  | some digits => value digits / 10 ^ digits.length

-- The exponent always has its sign.
def exponentPart : Option (Bool × List Char) → List Char
  | none => []
  | some (negative, digits) => 'e' :: (if negative then '-' else '+') :: digits

def exponentValue : Option (Bool × List Char) → ℤ
  | none => 0
  | some (negative, digits) => if negative then -value digits else value digits

def Numeral.text (numeral : Numeral) : List Char :=
  numeral.whole ++ (fractionPart numeral.fraction ++ exponentPart numeral.exponent)

def Numeral.value (numeral : Numeral) : ℚ :=
  (Decimal.value numeral.whole + fractionValue numeral.fraction) * 10 ^ exponentValue numeral.exponent

-- A numeral behind its sign, which only negative numbers have.
structure Signed where
  negative : Bool
  numeral : Numeral

def Signed.text (signed : Signed) : List Char :=
  (if signed.negative then ['-'] else []) ++ signed.numeral.text

def Signed.value (signed : Signed) : ℚ :=
  (if signed.negative then -1 else 1) * signed.numeral.value

-- Digits stand behind a point, and the last of them is no zero.
def Tidy (fraction : Option (List Char)) : Prop :=
  ∀ digits, fraction = some digits → DigitsText digits ∧ digits.getLast? ≠ some '0'

section Padding

theorem digits_length (n width : ℕ) (some : 0 < width) (fits : n < 10 ^ width) : (digits n).length ≤ width := by
  induction n using digits.induct generalizing width with
  | case1 n small =>
      rw [digits_small n small]
      exact some
  | case2 n large ih =>
      obtain ⟨width, rfl⟩ : ∃ shorter, width = shorter + 1 := ⟨width - 1, by omega⟩
      rw [pow_succ] at fits
      have shorter : 0 < width := by
        by_contra none
        rw [Nat.eq_zero_of_not_pos none, pow_zero] at fits
        omega
      rw [digits_large n large, List.length_append, List.length_singleton]
      exact Nat.succ_le_succ (ih width shorter (by omega))

theorem padded_length (width n : ℕ) (some : 0 < width) (fits : n < 10 ^ width) : (padded width n).length = width := by
  have length := digits_length n width some fits
  rw [padded, List.length_append, List.length_replicate]
  omega

theorem padded_digits (width n : ℕ) : DigitsText (padded width n) := by
  refine ⟨List.append_ne_nil_of_right_ne_nil _ (digits_nonempty n), ?_⟩
  intro c member
  rcases List.mem_append.mp member with zero | digit
  · rw [List.eq_of_mem_replicate zero]
    rfl
  · exact digits_digit n c digit

theorem padded_least (width n : ℕ) : width ≤ (padded width n).length := by
  rw [padded, List.length_append, List.length_replicate]
  omega

theorem padded_leading (width n : ℕ) (some : 0 < width) (wide : width < (padded width n).length) :
    (padded width n).head? ≠ .some '0' := by
  by_cases zero : n = 0
  · rw [zero, padded_length width 0 some (by positivity)] at wide
    omega
  · rw [padded, List.length_append, List.length_replicate] at wide
    rw [padded, Nat.sub_eq_zero_of_le (by omega), List.replicate_zero, List.nil_append]
    exact digits_leading n zero

theorem value_zeros_before (zeros : ℕ) (text : List Char) : value (List.replicate zeros '0' ++ text) = value text := by
  induction zeros with
  | zero => rfl
  | succ zeros ih => exact ih

theorem value_padded (width n : ℕ) : value (padded width n) = n := by
  rw [padded, value_zeros_before, value_digits]

theorem value_zeros_behind (text : List Char) (zeros : ℕ) : value (text ++ List.replicate zeros '0') = value text * 10 ^ zeros := by
  induction zeros with
  | zero => simp
  | succ zeros ih =>
      have zero : digitValue '0' = 0 := rfl
      rw [List.replicate_succ', ← List.append_assoc, value_snoc, ih, zero, pow_succ]
      ring

end Padding

section Trimming

-- The digits of a fractional part that are kept, if there are any.
def kept (fraction : List Char) : Option (List Char) :=
  if fraction.rdropWhile (· == '0') = [] then none else some (fraction.rdropWhile (· == '0'))

theorem trim_whole (whole : List Char) (noPoint : '.' ∉ whole) : trimFraction whole = whole := by
  rw [trimFraction, if_neg (by simpa using noPoint)]

theorem kept_member (fraction : List Char) (c : Char) (member : c ∈ fraction.rdropWhile (· == '0')) : c ∈ fraction :=
  (List.rdropWhile_prefix (· == '0') fraction).mem member

theorem trim_pointed (whole fraction : List Char) (noPoint : '.' ∉ whole) (noSecond : '.' ∉ fraction) :
    trimFraction (whole ++ '.' :: fraction) = whole ++ fractionPart (kept fraction) := by
  have zeros : fraction.reverse.dropWhile (· == '0') = (fraction.rdropWhile (· == '0')).reverse := by
    simp [List.rdropWhile]
  rw [trimFraction, if_pos (by simp), List.reverse_append, List.reverse_cons, List.append_assoc, List.singleton_append,
    List.dropWhile_append, zeros, List.isEmpty_reverse, kept]
  by_cases none : fraction.rdropWhile (· == '0') = []
  · rw [none, if_pos rfl, if_pos List.isEmpty_nil, fractionPart, List.append_nil]
    cases last : whole.reverse with
    | nil => simp [List.reverse_eq_nil_iff.mp last]
    | cons c others =>
        have other : c ≠ '.' := by
          rintro rfl
          exact noPoint (List.mem_reverse.mp (by rw [last]; exact List.mem_cons_self))
        rw [← List.reverse_eq_iff.mpr last.symm]
        simp [other]
  · rw [if_neg (by simpa using none), if_neg none, fractionPart]
    obtain ⟨c, others, last⟩ := List.exists_cons_of_ne_nil (List.reverse_ne_nil_iff.mpr none)
    have other : c ≠ '.' := by
      rintro rfl
      exact noSecond (kept_member fraction '.' (List.mem_reverse.mp (by rw [last]; exact List.mem_cons_self)))
    rw [last, List.cons_append, List.dropWhile_cons_of_neg (by simpa using other), ← List.cons_append, ← last]
    simp

theorem kept_tidy (fraction : List Char) (proper : ∀ c ∈ fraction, isDigit c = true) : Tidy (kept fraction) := by
  intro digits known
  rw [kept] at known
  split at known
  · cases known
  · rename_i nonempty
    obtain rfl := Option.some.inj known
    refine ⟨⟨nonempty, ?_⟩, ?_⟩
    · intro c member
      exact proper c (kept_member fraction c member)
    · rw [List.getLast?_eq_some_getLast nonempty]
      intro zero
      exact List.rdropWhile_last_not (· == '0') fraction nonempty (by simpa using zero)

theorem split_zeros (fraction : List Char) :
    ∃ zeros, fraction = fraction.rdropWhile (· == '0') ++ List.replicate zeros '0' := by
  have taken : fraction.rtakeWhile (· == '0') = List.replicate (fraction.rtakeWhile (· == '0')).length '0' := by
    refine List.eq_replicate_of_mem ?_
    intro c member
    simpa using List.mem_rtakeWhile_imp member
  refine ⟨(fraction.rtakeWhile (· == '0')).length, ?_⟩
  rw [← taken, List.rdropWhile_append_rtakeWhile]

theorem kept_value (fraction : List Char) : fractionValue (kept fraction) = value fraction / 10 ^ fraction.length := by
  obtain ⟨zeros, split⟩ := split_zeros fraction
  have scaled : (value fraction : ℚ) / 10 ^ fraction.length =
      value (fraction.rdropWhile (· == '0')) / 10 ^ (fraction.rdropWhile (· == '0')).length := by
    nth_rewrite 1 [split]
    nth_rewrite 2 [split]
    rw [value_zeros_behind, List.length_append, List.length_replicate, pow_add]
    push_cast
    field_simp
  rw [scaled, kept]
  split
  · rename_i none
    rw [none]
    simp [fractionValue, value]
  · rfl

end Trimming

theorem digits_lack (mark : Char) (other : isDigit mark = false) (text : List Char) (proper : ∀ c ∈ text, isDigit c = true) :
    mark ∉ text := by
  intro member
  rw [proper mark member] at other
  cases other

theorem trimmed_pointed (places units : ℕ) :
    ∃ whole fraction, trimFraction (pointed places units) = whole ++ fractionPart fraction ∧ WholeText whole ∧ Tidy fraction ∧
      (value whole : ℚ) + fractionValue fraction = units / 10 ^ places := by
  simp only [pointed, Nat.pow_eq]
  by_cases none : places = 0
  · rw [if_pos none, trim_whole _ (digits_lack '.' (by decide) _ (digits_digit units))]
    refine ⟨digits units, .none, by simp [fractionPart], digits_whole units, by simp [Tidy], ?_⟩
    rw [none, value_digits]
    simp [fractionValue]
  · have proper := (padded_digits places (units % 10 ^ places)).2
    have noPoint := digits_lack '.' (by decide)
    rw [if_neg none, trim_pointed _ _ (noPoint _ (digits_digit _)) (noPoint _ proper)]
    refine ⟨_, _, rfl, digits_whole _, kept_tidy _ proper, ?_⟩
    have length := padded_length places (units % 10 ^ places) (Nat.pos_of_ne_zero none) (Nat.mod_lt units (by positivity))
    have division : (units : ℚ) = 10 ^ places * (units / 10 ^ places : ℕ) + (units % 10 ^ places : ℕ) := by
      exact_mod_cast (Nat.div_add_mod units (10 ^ places)).symm
    have power : (10 : ℚ) ^ places ≠ 0 := by positivity
    rw [kept_value, length, value_digits, value_padded, eq_div_iff power, add_mul, div_mul_cancel₀ _ power, division]
    ring

theorem numeral_reads (numeral : Numeral) (whole : WholeText numeral.whole) (tidy : Tidy numeral.fraction)
    (exponential : ∀ negative digits, numeral.exponent = some (negative, digits) → DigitsText digits) :
    readNumeral numeral.text = .ok (numeral, []) := by
  have fractional : FractionText numeral.fraction (fractionPart numeral.fraction) := by
    cases known : numeral.fraction with
    | none => exact .absent
    | some digits => exact .pointed digits (tidy digits known).1
  have exponent : ExponentText numeral.exponent (exponentPart numeral.exponent) := by
    cases known : numeral.exponent with
    | none => exact .absent
    | some written => exact .signed 'e' written.1 written.2 (Or.inl rfl) (exponential written.1 written.2 known)
  have read := read_numeral numeral _ [] (.parts numeral _ _ whole fractional exponent) halted_nil
  rw [List.append_nil] at read
  exact read

theorem exponent_value (exponent : ℤ) :
    exponentValue (some (decide (exponent < 0), padded 2 exponent.natAbs)) = exponent := by
  rw [exponentValue, value_padded]
  by_cases negative : exponent < 0
  · rw [if_pos (decide_eq_true negative)]
    omega
  · rw [if_neg (by simpa using negative)]
    omega

end Frontend.Decimal
