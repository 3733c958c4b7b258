import Frontend.Decimal.Numeral

set_option autoImplicit false

namespace Frontend.Decimal

theorem digit_char_value (digit : Nat) (small : digit < 10) : digitValue (digitChar digit) = digit := by
  have each : ∀ digit < 10, digitValue (digitChar digit) = digit := by decide
  exact each digit small

theorem digit_char_digit (digit : Nat) (small : digit < 10) : isDigit (digitChar digit) = true := by
  have each : ∀ digit < 10, isDigit (digitChar digit) = true := by decide
  exact each digit small

theorem digits_small (n : Nat) (small : n < 10) : digits n = [digitChar n] := by
  rw [digits, if_pos small]

theorem digits_large (n : Nat) (large : ¬ n < 10) : digits n = digits (n / 10) ++ [digitChar (n % 10)] := by
  rw [digits, if_neg large]

theorem digits_digit (n : Nat) (c : Char) (member : c ∈ digits n) : isDigit c = true := by
  induction n using digits.induct with
  | case1 n small =>
      rw [digits_small n small, List.mem_singleton] at member
      rw [member]
      exact digit_char_digit n small
  | case2 n large ih =>
      rw [digits_large n large, List.mem_append, List.mem_singleton] at member
      rcases member with front | last
      · exact ih front
      · rw [last]
        exact digit_char_digit _ (Nat.mod_lt n (by decide))

theorem digits_nonempty (n : Nat) : digits n ≠ [] := by
  by_cases small : n < 10
  · simp [digits_small n small]
  · simp [digits_large n small]

theorem digits_leading (n : Nat) (positive : n ≠ 0) : (digits n).head? ≠ some '0' := by
  have each : ∀ digit < 10, digit ≠ 0 → digitChar digit ≠ '0' := by decide
  induction n using digits.induct with
  | case1 n small =>
      rw [digits_small n small]
      simpa using each n small positive
  | case2 n large ih =>
      obtain ⟨first, later, split⟩ := List.exists_cons_of_ne_nil (digits_nonempty (n / 10))
      rw [digits_large n large, split]
      rw [split] at ih
      exact ih (by omega)

theorem digits_zero_first (n : Nat) (zero : (digits n).head? = some '0') : digits n = ['0'] := by
  by_cases none : n = 0
  · rw [none, digits_small 0 (by decide)]
    rfl
  · exact absurd zero (digits_leading n none)

theorem value_snoc (numeral : List Char) (c : Char) : value (numeral ++ [c]) = value numeral * 10 + digitValue c := by
  rw [value, List.foldl_append]
  rfl

theorem value_digits (n : Nat) : value (digits n) = n := by
  induction n using digits.induct with
  | case1 n small =>
      rw [digits_small n small, ← List.nil_append [digitChar n], value_snoc, digit_char_value n small]
      exact Nat.zero_add n
  | case2 n large ih =>
      rw [digits_large n large, value_snoc, ih, digit_char_value _ (Nat.mod_lt n (by decide))]
      omega

end Frontend.Decimal
