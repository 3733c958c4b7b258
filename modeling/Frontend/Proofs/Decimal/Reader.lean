import Frontend.Decimal.Reader
import Frontend.Proofs.Decimal.Numeral

set_option autoImplicit false

namespace Frontend.Decimal

def DigitsText (text : List Char) : Prop := text ≠ [] ∧ ∀ c ∈ text, isDigit c = true

-- No zero stands in front of other digits.
def WholeText (text : List Char) : Prop := DigitsText text ∧ (text.head? = some '0' → text = ['0'])

theorem digits_whole (n : Nat) : WholeText (digits n) :=
  ⟨⟨digits_nonempty n, digits_digit n⟩, digits_zero_first n⟩

inductive FractionText : Option (List Char) → List Char → Prop where
  | absent : FractionText none []
  | pointed (digits : List Char) (proper : DigitsText digits) : FractionText (some digits) ('.' :: digits)

inductive ExponentText : Option (Bool × List Char) → List Char → Prop where
  | absent : ExponentText none []
  | bare (mark : Char) (digits : List Char) (letter : mark = 'e' ∨ mark = 'E') (proper : DigitsText digits) :
      ExponentText (some (false, digits)) (mark :: digits)
  | signed (mark : Char) (negative : Bool) (digits : List Char) (letter : mark = 'e' ∨ mark = 'E')
      (proper : DigitsText digits) :
      ExponentText (some (negative, digits)) (mark :: (if negative then '-' else '+') :: digits)

-- A number without its sign.
inductive NumeralText : Numeral → List Char → Prop where
  | parts (numeral : Numeral) (fraction exponent : List Char) (whole : WholeText numeral.whole)
      (fractional : FractionText numeral.fraction fraction) (exponential : ExponentText numeral.exponent exponent) :
      NumeralText numeral (numeral.whole ++ (fraction ++ exponent))

theorem numeral_head (numeral : Numeral) (text : List Char) (written : NumeralText numeral text) :
    ∃ c later, text = c :: later ∧ isDigit c = true := by
  cases written with
  | parts fraction exponent whole _ _ =>
      obtain ⟨first, later, split⟩ := List.exists_cons_of_ne_nil whole.1.1
      refine ⟨first, later ++ (fraction ++ exponent), by rw [split]; rfl, whole.1.2 first ?_⟩
      rw [split]
      exact List.mem_cons_self

-- A number goes on with none of these.
structure Halted (rest : List Char) : Prop where
  digit : headIsDigit rest = false
  point : rest.head? ≠ some '.'
  exponent : ∀ c, rest.head? = some c → ¬ (c = 'e' ∨ c = 'E')

theorem halted_nil : Halted [] := ⟨rfl, by simp, by simp⟩

theorem read_digits (digits rest : List Char) (proper : DigitsText digits) (stop : headIsDigit rest = false) :
    readDigits (digits ++ rest) = .ok (digits, rest) := by
  obtain ⟨nonempty, all⟩ := proper
  obtain ⟨first, later, rfl⟩ := List.exists_cons_of_ne_nil nonempty
  have head : headIsDigit (first :: later ++ rest) = true := all first List.mem_cons_self
  have ends : rest.takeWhile isDigit = [] ∧ rest.dropWhile isDigit = rest := by
    cases rest with
    | nil => exact ⟨rfl, rfl⟩
    | cons c rest =>
        rw [headIsDigit] at stop
        simp [stop]
  rw [readDigits, if_pos head, List.takeWhile_append_of_pos all, List.dropWhile_append_of_pos all, ends.1, ends.2,
    List.append_nil]

theorem read_whole (whole rest : List Char) (proper : WholeText whole) (stop : headIsDigit rest = false) :
    readWhole (whole ++ rest) = .ok (whole, rest) := by
  by_cases zero : whole.head? = some '0'
  · rw [proper.2 zero]
    simp [readWhole, stop]
  · have digits := read_digits whole rest proper.1 stop
    obtain ⟨first, later, rfl⟩ := List.exists_cons_of_ne_nil proper.1.1
    have other : first ≠ '0' := by simpa using zero
    rw [← digits, List.cons_append, readWhole]
    intro tail same
    exact other (List.cons.inj same).1

theorem read_fraction (fraction : Option (List Char)) (text rest : List Char) (written : FractionText fraction text)
    (digit : headIsDigit rest = false) (point : rest.head? ≠ some '.') :
    readFraction (text ++ rest) = .ok (fraction, rest) := by
  cases written with
  | absent =>
      rw [List.nil_append, readFraction]
      rintro tail rfl
      exact point rfl
  | pointed digits proper => rw [List.cons_append, readFraction, read_digits digits rest proper digit]

theorem read_sign (digits rest : List Char) (proper : DigitsText digits) : readSign (digits ++ rest) = (false, digits ++ rest) := by
  obtain ⟨first, later, rfl⟩ := List.exists_cons_of_ne_nil proper.1
  have digit := proper.2 first List.mem_cons_self
  have minus : first ≠ '-' := fun same => absurd (same ▸ digit) (by decide)
  have plus : first ≠ '+' := fun same => absurd (same ▸ digit) (by decide)
  rw [List.cons_append, readSign]
  · intro tail same
    exact minus (List.cons.inj same).1
  · intro tail same
    exact plus (List.cons.inj same).1

theorem read_exponent (exponent : Option (Bool × List Char)) (text rest : List Char) (written : ExponentText exponent text)
    (halted : Halted rest) : readExponent (text ++ rest) = .ok (exponent, rest) := by
  cases written with
  | absent =>
      cases rest with
      | nil => rfl
      | cons c rest => rw [List.nil_append, readExponent, if_neg (halted.exponent c rfl)]
  | bare mark digits letter proper =>
      rw [List.cons_append, readExponent, if_pos letter]
      simp only [read_sign digits rest proper, read_digits digits rest proper halted.digit]
  | signed mark negative digits letter proper =>
      have sign : readSign ((if negative then '-' else '+') :: (digits ++ rest)) = (negative, digits ++ rest) := by
        cases negative <;> rfl
      rw [List.cons_append, List.cons_append, readExponent, if_pos letter]
      simp only [sign, read_digits digits rest proper halted.digit]

theorem exponent_stops (exponent : Option (Bool × List Char)) (text rest : List Char) (written : ExponentText exponent text)
    (halted : Halted rest) : headIsDigit (text ++ rest) = false ∧ (text ++ rest).head? ≠ some '.' := by
  have marks : ∀ mark, mark = 'e' ∨ mark = 'E' → isDigit mark = false ∧ mark ≠ '.' := by
    rintro mark (rfl | rfl) <;> decide
  cases written with
  | absent => exact ⟨halted.digit, halted.point⟩
  | bare mark digits letter _ => simpa [headIsDigit] using marks mark letter
  | signed mark negative digits letter _ => simpa [headIsDigit] using marks mark letter

theorem fraction_stops (fraction : Option (List Char)) (text rest : List Char) (written : FractionText fraction text)
    (stop : headIsDigit rest = false) : headIsDigit (text ++ rest) = false := by
  cases written with
  | absent => exact stop
  | pointed digits _ => rfl

theorem read_numeral (numeral : Numeral) (text rest : List Char) (written : NumeralText numeral text) (halted : Halted rest) :
    readNumeral (text ++ rest) = .ok (numeral, rest) := by
  cases written with
  | parts fraction exponent whole fractional exponential =>
      obtain ⟨digit, point⟩ := exponent_stops _ exponent rest exponential halted
      have stop := fraction_stops _ fraction _ fractional digit
      rw [readNumeral, List.append_assoc, List.append_assoc, read_whole _ _ whole stop]
      simp only [read_fraction _ fraction _ fractional digit point, read_exponent _ exponent rest exponential halted]

end Frontend.Decimal
