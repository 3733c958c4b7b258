set_option autoImplicit false

namespace Frontend

inductive ElementType where
  | int
  | double
  | char
  | bool
deriving DecidableEq

namespace ElementType

def text : ElementType → String
  | .int => "int"
  | .double => "double"
  | .char => "char"
  | .bool => "bool"

end ElementType

inductive ValueType where
  | scalar (element : ElementType)
  | array (element : ElementType)
deriving DecidableEq

namespace ValueType

def element : ValueType → ElementType
  | .scalar element => element
  | .array element => element

def isArray : ValueType → Bool
  | .scalar _ => false
  | .array _ => true

def elementType (type : ValueType) : ValueType :=
  .scalar type.element

def arrayOf (type : ValueType) : ValueType :=
  .array type.element

def text : ValueType → String
  | .scalar element => element.text
  | .array element => element.text ++ "[]"

end ValueType

end Frontend
