import Frontend.Decimal.Numeral

set_option autoImplicit false

namespace Frontend.Decimal

structure Numeral where
  whole : List Char
  fraction : Option (List Char)
  -- Whether the exponent is negative, and its digits.
  exponent : Option (Bool × List Char)

-- The text ends where a digit has to stand, or goes on in a way that no numeral does.
inductive Flaw where
  | cutOff
  | misplaced

def headIsDigit : List Char → Bool
  | [] => false
  | c :: _ => isDigit c

def readDigits (text : List Char) : Except Flaw (List Char × List Char) :=
  if headIsDigit text then .ok (text.takeWhile isDigit, text.dropWhile isDigit)
  else if text.isEmpty then .error .cutOff
  else .error .misplaced

-- No zero stands in front of other digits.
def readWhole : List Char → Except Flaw (List Char × List Char)
  | '0' :: rest => if headIsDigit rest then .error .misplaced else .ok (['0'], rest)
  | text => readDigits text

def readFraction : List Char → Except Flaw (Option (List Char) × List Char)
  | '.' :: text =>
    match readDigits text with
    | .error flaw => .error flaw
    | .ok (digits, rest) => .ok (some digits, rest)
  | text => .ok (none, text)

def readSign : List Char → Bool × List Char
  | '-' :: text => (true, text)
  | '+' :: text => (false, text)
  | text => (false, text)

def readExponent : List Char → Except Flaw (Option (Bool × List Char) × List Char)
  | [] => .ok (none, [])
  | c :: text =>
    if c = 'e' ∨ c = 'E' then
      let signed := readSign text
      match readDigits signed.2 with
      | .error flaw => .error flaw
      | .ok (digits, rest) => .ok (some (signed.1, digits), rest)
    else .ok (none, c :: text)

def readNumeral (text : List Char) : Except Flaw (Numeral × List Char) :=
  match readWhole text with
  | .error flaw => .error flaw
  | .ok (whole, rest) =>
    match readFraction rest with
    | .error flaw => .error flaw
    | .ok (fraction, rest) =>
      match readExponent rest with
      | .error flaw => .error flaw
      | .ok (exponent, rest) => .ok (⟨whole, fraction, exponent⟩, rest)

theorem length_readDigits {text digits rest : List Char}
    (read : readDigits text = .ok (digits, rest)) : rest.length < text.length := by
  unfold readDigits at read
  split at read
  · rename_i digit
    cases text with
    | nil => simp [headIsDigit] at digit
    | cons c text =>
      simp only [headIsDigit] at digit
      simp only [Except.ok.injEq, Prod.mk.injEq, List.dropWhile_cons, digit, if_true] at read
      rw [← read.2]
      exact Nat.lt_succ_of_le (List.dropWhile_sublist isDigit).length_le
  · split at read <;> cases read

theorem length_readWhole {text digits rest : List Char}
    (read : readWhole text = .ok (digits, rest)) : rest.length < text.length := by
  unfold readWhole at read
  split at read
  · split at read
    · cases read
    · cases read; simp
  · exact length_readDigits read

theorem length_readFraction {text rest : List Char} {digits : Option (List Char)}
    (read : readFraction text = .ok (digits, rest)) : rest.length ≤ text.length := by
  unfold readFraction at read
  split at read
  · split at read
    · cases read
    · rename_i some
      cases read
      exact Nat.le_of_lt (Nat.lt_trans (length_readDigits some) (Nat.lt_succ_self _))
  · cases read; exact Nat.le_refl _

theorem length_readSign (text : List Char) : (readSign text).2.length ≤ text.length := by
  unfold readSign
  split <;> simp

theorem length_readExponent {text rest : List Char} {exponent : Option (Bool × List Char)}
    (read : readExponent text = .ok (exponent, rest)) : rest.length ≤ text.length := by
  unfold readExponent at read
  split at read
  · cases read; exact Nat.le_refl _
  · rename_i c text
    split at read
    · simp only at read
      split at read
      · cases read
      · rename_i some
        cases read
        have shorter := length_readDigits some
        have signed := length_readSign text
        simp only [List.length_cons]
        omega
    · cases read; exact Nat.le_refl _

theorem length_readNumeral {text rest : List Char} {numeral : Numeral}
    (read : readNumeral text = .ok (numeral, rest)) : rest.length < text.length := by
  unfold readNumeral at read
  split at read
  · cases read
  · rename_i whole
    split at read
    · cases read
    · rename_i fraction
      split at read
      · cases read
      · rename_i exponent
        cases read
        exact Nat.lt_of_le_of_lt (length_readExponent exponent)
          (Nat.lt_of_le_of_lt (length_readFraction fraction) (length_readWhole whole))

end Frontend.Decimal
