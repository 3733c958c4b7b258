import Frontend.Decimal.Numeral

set_option autoImplicit false

namespace Frontend.Decimal

-- The even neighbour, if two are equally near.
def roundDiv (numerator denominator : Nat) : Nat :=
  let below := numerator / denominator
  let twice := 2 * (numerator % denominator)
  if twice < denominator then below
  else if denominator < twice then below + 1
  else if below % 2 = 0 then below
  else below + 1

def roundScaled (numerator denominator : Nat) : Int → Nat
  | .ofNat places => roundDiv (numerator * Nat.pow 10 places) denominator
  | .negSucc places => roundDiv numerator (denominator * Nat.pow 10 (places + 1))

def decadesAbove (n : Nat) : Nat :=
  if n < 10 then 0 else decadesAbove (n / 10) + 1

def decadesBelow (numerator denominator : Nat) : Nat :=
  if numerator = 0 ∨ denominator ≤ numerator then 0
  else decadesBelow (numerator * 10) denominator + 1
termination_by denominator - numerator

def decade (numerator denominator : Nat) : Int :=
  if denominator ≤ numerator then decadesAbove (numerator / denominator)
  else -decadesBelow numerator denominator

structure Scientific where
  digits : Nat
  exponent : Int

-- Digits that round up to the next power of ten move to the next decade.
def scientific (precision numerator denominator : Nat) : Scientific :=
  let exponent := decade numerator denominator
  let digits := roundScaled numerator denominator (precision - 1 - exponent)
  if digits = Nat.pow 10 precision then ⟨digits / 10, exponent + 1⟩ else ⟨digits, exponent⟩

def padded (width n : Nat) : List Char :=
  List.replicate (width - (digits n).length) '0' ++ digits n

def pointed (places units : Nat) : List Char :=
  if places = 0 then digits units
  else digits (units / Nat.pow 10 places) ++ '.' :: padded places (units % Nat.pow 10 places)

-- The point goes too if nothing is left behind it.
def trimFraction (numeral : List Char) : List Char :=
  if numeral.contains '.' then
    ((numeral.reverse.dropWhile (· == '0')).dropWhile (· == '.')).reverse
  else
    numeral

end Frontend.Decimal
