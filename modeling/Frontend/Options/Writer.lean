import Frontend.Decimal.Numeral
import Frontend.Options.Basic
import Frontend.Text.Control

set_option autoImplicit false

namespace Frontend

namespace Json

def writtenChar (c : Char) : List Char :=
  if c = '"' then ['\\', '"']
  else if c = '\\' then ['\\', '\\']
  else if c = '\x08' then ['\\', 'b']
  else if c = '\x0c' then ['\\', 'f']
  else if c = '\n' then ['\\', 'n']
  else if c = '\r' then ['\\', 'r']
  else if c = '\t' then ['\\', 't']
  else if c.toNat < 0x20 then
    ['\\', 'u', '0', '0', Text.hexDigit (c.toNat / 16), Text.hexDigit (c.toNat % 16)]
  else [c]

def writtenString (text : String) : List Char :=
  '"' :: text.toList.flatMap writtenChar ++ ['"']

end Json

def Policy.name : Policy → String
  | .abort => "abort"
  | .propagate => "propagate"

namespace Options

def maxNodesText : Option Nat → List Char
  | none => ['n', 'u', 'l', 'l']
  | some maxNodes => Decimal.digits maxNodes

def writtenObject (members : List (String × List Char)) : List Char :=
  let written := members.map fun member => Json.writtenString member.1 ++ ':' :: member.2
  '\x7b' :: [','].intercalate written ++ ['\x7d']

def write (options : Options) : String :=
  String.ofList (writtenObject
    [("build", writtenObject
       [("allocPolicy", Json.writtenString options.build.policy.name),
        ("maxNodes", maxNodesText options.build.maxNodes)]),
     ("printer", writtenObject
       [("indentWidth", Decimal.digits options.printer.indentWidth),
        ("newLine", Json.writtenString options.printer.newLine)])])

end Options

end Frontend
