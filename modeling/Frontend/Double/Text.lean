import Frontend.Double.Basic
import Frontend.Decimal.Rounding

set_option autoImplicit false

namespace Frontend.Double

def precision : Nat := 6

def leastPositional : Int := -4

def exponentText (exponent : Int) : List Char :=
  'e' :: (if exponent < 0 then '-' else '+') :: Decimal.padded 2 exponent.natAbs

-- The rounded digits decide on the notation. The positional one then writes the fraction itself, to as many places as the
-- precision leaves.
def fractionText (numerator denominator : Nat) : List Char :=
  let rounded := Decimal.scientific precision numerator denominator
  if rounded.exponent < leastPositional ∨ (precision : Int) ≤ rounded.exponent then
    Decimal.trimFraction (Decimal.pointed (precision - 1) rounded.digits)
      ++ exponentText rounded.exponent
  else
    let places := ((precision : Int) - 1 - rounded.exponent).toNat
    Decimal.trimFraction
      (Decimal.pointed places (Decimal.roundScaled numerator denominator places))

def text (d : Double) : String :=
  if d.isNaN then "nan"
  else
    let sign := if d.isNegative then "-" else ""
    if d.isInfinite then sign ++ "inf"
    else if d.isZero then sign ++ "0"
    else sign ++ String.ofList (fractionText d.numerator d.denominator)

end Frontend.Double
