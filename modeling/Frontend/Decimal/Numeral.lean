set_option autoImplicit false

namespace Frontend.Decimal

def digitChar (digit : Nat) : Char :=
  Char.ofNat (48 + digit)

def digitValue (c : Char) : Nat :=
  c.toNat - 48

def isDigit (c : Char) : Bool :=
  decide (48 ≤ c.toNat) && decide (c.toNat ≤ 57)

def digits (n : Nat) : List Char :=
  if n < 10 then [digitChar n] else digits (n / 10) ++ [digitChar (n % 10)]

def value (numeral : List Char) : Nat :=
  numeral.foldl (fun total c => total * 10 + digitValue c) 0

def text (n : Nat) : String :=
  String.ofList (digits n)

def signedText : Int → String
  | .ofNat n => text n
  | .negSucc n => "-" ++ text (n + 1)

end Frontend.Decimal
