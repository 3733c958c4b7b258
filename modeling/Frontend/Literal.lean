import Frontend.Double.Text
import Frontend.ValueType

set_option autoImplicit false

namespace Frontend

inductive Literal where
  | int (value : Int)
  | double (value : Double)
  | char (value : Char)
  | bool (value : Bool)
  | intArray (values : List Int)
  | doubleArray (values : List Double)
  | charArray (value : String)
  | boolArray (values : List Bool)

namespace Literal

def type : Literal → ValueType
  | .int _ => .scalar .int
  | .double _ => .scalar .double
  | .char _ => .scalar .char
  | .bool _ => .scalar .bool
  | .intArray _ => .array .int
  | .doubleArray _ => .array .double
  | .charArray _ => .array .char
  | .boolArray _ => .array .bool

def sameDoubles : List Double → List Double → Bool
  | [], [] => true
  | a :: as, b :: bs => a.same b && sameDoubles as bs
  | _, _ => false

def same : Literal → Literal → Bool
  | .int a, .int b => a == b
  | .double a, .double b => a.same b
  | .char a, .char b => a == b
  | .bool a, .bool b => a == b
  | .intArray a, .intArray b => a == b
  | .doubleArray a, .doubleArray b => sameDoubles a b
  | .charArray a, .charArray b => a == b
  | .boolArray a, .boolArray b => a == b
  | _, _ => false

def boolText (value : Bool) : String :=
  if value then "1" else "0"

def joined (elements : List String) : String :=
  String.intercalate " " elements

def text : Literal → String
  | .int value => Decimal.signedText value
  | .double value => value.text
  | .char value => String.singleton value
  | .bool value => boolText value
  | .intArray values => joined (values.map Decimal.signedText)
  | .doubleArray values => joined (values.map Double.text)
  | .charArray value => value
  | .boolArray values => joined (values.map boolText)

end Literal

end Frontend
