import Frontend.Json.Fault
import Frontend.Decimal.Reader
import Frontend.Decimal.Rounding

set_option autoImplicit false

namespace Frontend.Json

structure Scaled where
  significand : Nat
  exponent : Int

-- A digit that does not fit into 64 bits only moves the exponent.
def Scaled.ofWhole (significand : Nat) : List Char → Scaled
  | [] => ⟨significand, 0⟩
  | c :: digits =>
    let next := significand * 10 + Decimal.digitValue c
    if next < UInt64.size then Scaled.ofWhole next digits else ⟨significand, digits.length + 1⟩

def Scaled.addFraction (scaled : Scaled) : List Char → Scaled
  | [] => scaled
  | c :: digits =>
    let next := scaled.significand * 10 + Decimal.digitValue c
    if next < UInt64.size then Scaled.addFraction ⟨next, scaled.exponent - 1⟩ digits else scaled

def Scaled.addExponent (scaled : Scaled) : Option (Bool × List Char) → Scaled
  | none => scaled
  | some (true, digits) => { scaled with exponent := scaled.exponent - Decimal.value digits }
  | some (false, digits) => { scaled with exponent := scaled.exponent + Decimal.value digits }

def Scaled.ofNumeral (numeral : Decimal.Numeral) : Scaled :=
  ((ofWhole 0 numeral.whole).addFraction (numeral.fraction.getD [])).addExponent
    numeral.exponent

def roundToDouble (n : Nat) : Nat :=
  let unit := Nat.pow 2 (n.log2 + 1 - 53)
  Decimal.roundDiv n unit * unit

-- No double is as large as the product of the significand and the power of ten, both as doubles.
def Scaled.isInfinite (scaled : Scaled) : Bool :=
  if scaled.significand = 0 ∨ scaled.exponent < 0 then false
  else if 308 < scaled.exponent then true
  else
    decide (Nat.pow 2 1024 - Nat.pow 2 970 ≤
      roundToDouble scaled.significand * roundToDouble (Nat.pow 10 scaled.exponent.toNat))

inductive Number where
  | natural (n : Nat)
  | other
deriving DecidableEq

def isPlain (numeral : Decimal.Numeral) : Bool :=
  numeral.fraction.isNone && numeral.exponent.isNone
    && decide (Decimal.value numeral.whole < UInt64.size)

def readNumber (negative : Bool) (text : List Char) : Except Fault (Number × List Char) :=
  match Decimal.readNumeral text with
  | .error .cutOff => .error .endOfText
  | .error .misplaced => .error .malformed
  | .ok (numeral, rest) =>
    if isPlain numeral then
      .ok (if negative then .other else .natural (Decimal.value numeral.whole), rest)
    else if (Scaled.ofNumeral numeral).isInfinite then .error .malformed
    else .ok (.other, rest)

end Frontend.Json
