set_option autoImplicit false

namespace Frontend.Markup

def replacement : Char := '\ufffd'

def isForbidden (c : Char) : Bool :=
  (decide (c.toNat < 0x20) && c != '\t' && c != '\n' && c != '\r')
    || c.toNat == 0xfffe || c.toNat == 0xffff

def needsEscape (c : Char) : Bool :=
  c == '&' || c == '<' || c == '>' || c == '"' || c == '\x27' || decide (c.toNat < 0x20)
    || c.toNat == 0xfffe || c.toNat == 0xffff

def escapeChar (c : Char) : List Char :=
  if c = '&' then ['&', 'a', 'm', 'p', ';']
  else if c = '<' then ['&', 'l', 't', ';']
  else if c = '>' then ['&', 'g', 't', ';']
  else if c = '"' then ['&', 'q', 'u', 'o', 't', ';']
  else if c = '\x27' then ['&', 'a', 'p', 'o', 's', ';']
  else if c = '\t' then ['&', '#', '9', ';']
  else if c = '\n' then ['&', '#', '1', '0', ';']
  else if c = '\r' then ['&', '#', '1', '3', ';']
  else if isForbidden c then [replacement]
  else [c]

def escape (text : String) : String :=
  if text.toList.any needsEscape then String.ofList (text.toList.flatMap escapeChar) else text

end Frontend.Markup
