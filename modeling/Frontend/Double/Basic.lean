set_option autoImplicit false

namespace Frontend

structure Double where
  bits : UInt64

namespace Double

def zero : Double := ⟨0⟩

def isNegative (d : Double) : Bool :=
  decide (Nat.pow 2 63 ≤ d.bits.toNat)

def exponentField (d : Double) : Nat :=
  d.bits.toNat / Nat.pow 2 52 % Nat.pow 2 11

def fractionField (d : Double) : Nat :=
  d.bits.toNat % Nat.pow 2 52

def isNaN (d : Double) : Bool :=
  d.exponentField == 2047 && d.fractionField != 0

def isInfinite (d : Double) : Bool :=
  d.exponentField == 2047 && d.fractionField == 0

def isZero (d : Double) : Bool :=
  d.exponentField == 0 && d.fractionField == 0

def significand (d : Double) : Nat :=
  if d.exponentField = 0 then d.fractionField else Nat.pow 2 52 + d.fractionField

def exponent (d : Double) : Int :=
  if d.exponentField = 0 then -1074 else d.exponentField - 1075

def numerator (d : Double) : Nat :=
  d.significand * Nat.pow 2 d.exponent.toNat

def denominator (d : Double) : Nat :=
  Nat.pow 2 (-d.exponent).toNat

-- No NaN equals anything, and the two zeros are equal.
def same (a b : Double) : Bool :=
  !a.isNaN && !b.isNaN && (a.bits == b.bits || (a.isZero && b.isZero))

end Double

end Frontend
