import Frontend.Decimal.Numeral

set_option autoImplicit false

namespace Frontend

def Label.capacity : Nat := 2

structure Label where
  text : String
  fits : text.utf8ByteSize ≤ Label.capacity
deriving DecidableEq

inductive LabelError where
  | tooLong (operator : String)
deriving DecidableEq

def LabelError.message : LabelError → String
  | .tooLong operator =>
    "operator '" ++ operator ++ "' is longer than " ++ Decimal.text Label.capacity ++ " bytes"

namespace Label

def ofText (text : String) : Except LabelError Label :=
  if fits : text.utf8ByteSize ≤ capacity then .ok ⟨text, fits⟩ else .error (.tooLong text)

def list : Label := ⟨"L", by decide⟩

def empty : Label := ⟨"", by decide⟩

def isEmpty (label : Label) : Bool :=
  label.text.utf8ByteSize == 0

end Label

end Frontend
