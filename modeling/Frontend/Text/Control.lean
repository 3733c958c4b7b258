set_option autoImplicit false

namespace Frontend.Text

def isControl (c : Char) : Bool :=
  decide (c.toNat < 0x20) || (decide (0x7f ≤ c.toNat) && decide (c.toNat < 0xa0))

def hexDigit (digit : Nat) : Char :=
  if digit < 10 then Char.ofNat (48 + digit) else Char.ofNat (87 + digit)

def hexDigits (n : Nat) : List Char :=
  if n < 16 then [hexDigit n] else hexDigits (n / 16) ++ [hexDigit (n % 16)]

def controlEscape (c : Char) : List Char :=
  if c = '\x00' then ['\\', '0']
  else if c = '\t' then ['\\', 't']
  else if c = '\n' then ['\\', 'n']
  else if c = '\r' then ['\\', 'r']
  else ['\\', 'u', '\x7b'] ++ hexDigits c.toNat ++ ['\x7d']

def printableChar (c : Char) : List Char :=
  if isControl c then controlEscape c else [c]

def printable (text : String) : String :=
  if text.toList.any isControl then
    String.ofList (text.toList.flatMap printableChar)
  else
    text

def quotedChar (c : Char) : List Char :=
  if c = '"' then ['\\', '"'] else if c = '\\' then ['\\', '\\'] else printableChar c

def quoted (text : String) : String :=
  String.ofList ('"' :: text.toList.flatMap quotedChar ++ ['"'])

end Frontend.Text
