import Frontend.Markup.Escape
import Frontend.Page
import Frontend.SymbolTable.Names
import Frontend.Tree.Basic

set_option autoImplicit false

namespace Frontend.Markup

inductive Mark where
  | opening (tag : String)
  | closing
  | value (name text : String)
  | returned
deriving DecidableEq

def Mark.text : Mark → String
  | .opening tag => "<node type=\"" ++ tag ++ "\">"
  | .closing => "</node>"
  | .value name text => "<value name=\"" ++ name ++ "\">" ++ escape text ++ "</value>"
  | .returned => "<node type=\"RETURN\"></node>"

structure Element where
  level : Nat
  mark : Mark

def Element.line (element : Element) : Line :=
  ⟨element.level, element.mark.text⟩

-- Arrays of doubles share the name of single ones, and strings that of single characters.
def literalName : Literal → String
  | .int _ => "INT"
  | .double _ => "DOUBLE"
  | .char _ => "STRING"
  | .bool _ => "BOOL"
  | .intArray _ => "INT ARRAY"
  | .doubleArray _ => "DOUBLE"
  | .charArray _ => "STRING"
  | .boolArray _ => "BOOL ARRAY"

mutual

-- An assignment has no element around it: its three elements stand side by side.
def prepend (table : SymbolTable) (level : Nat) : Tree → List Element → List Element
  | .binary .op op _ left right, rest =>
    ⟨level, .opening "binary_op"⟩ :: ⟨level + 1, .value "OP" op.text⟩
      :: prepend table (level + 1) left
        (prepend table (level + 1) right (⟨level, .closing⟩ :: rest))
  | .binary .list _ _ left right, rest =>
    ⟨level, .opening "stmt_list"⟩
      :: prepend table (level + 1) left
        (prepend table (level + 1) right (⟨level, .closing⟩ :: rest))
  | .unary .op op _ operand, rest =>
    ⟨level, .opening "UNOP"⟩ :: ⟨level + 1, .value "OP" op.text⟩
      :: prepend table (level + 1) operand (⟨level, .closing⟩ :: rest)
  | .unary .input _ _ operand, rest =>
    ⟨level, .opening "INPUT"⟩ :: prepend table (level + 1) operand (⟨level, .closing⟩ :: rest)
  | .unary .output _ _ operand, rest =>
    ⟨level, .opening "OUTPUT"⟩ :: prepend table (level + 1) operand (⟨level, .closing⟩ :: rest)
  | .literal value, rest => ⟨level, .value (literalName value) value.text⟩ :: rest
  | .reference _ symbol, rest => ⟨level, .value "VARIABLE" (table.shownName symbol)⟩ :: rest
  | .assignment target value, rest =>
    ⟨level, .value "OP" "="⟩ :: ⟨level, .value "VARIABLE" (table.shownName target)⟩
      :: prepend table level value rest
  | .flow .branch condition thenBranch elseBranch, rest =>
    ⟨level, .opening "IF"⟩
      :: prependSection table (level + 1) "CONDITION" condition
        (prependSection table (level + 1) "IF_TRUE" thenBranch
          (prependSection table (level + 1) "IF_FALSE" elseBranch (⟨level, .closing⟩ :: rest)))
  | .flow .loop condition thenBranch _, rest =>
    ⟨level, .opening "LOOP"⟩
      :: prependSection table (level + 1) "CONDITION" condition
        (prependSection table (level + 1) "LOOP_BODY" thenBranch (⟨level, .closing⟩ :: rest))
  | .flow .function _ thenBranch _, rest =>
    ⟨level, .opening "FUNC"⟩ :: prependBody table (level + 1) thenBranch (⟨level, .closing⟩ :: rest)
  | .jump, rest => ⟨level, .value "JUMP" ""⟩ :: rest
  | .ret, rest => ⟨level, .returned⟩ :: rest

def prependSection (table : SymbolTable) (level : Nat) (tag : String) :
    Option Tree → List Element → List Element
  | none, rest => rest
  | some tree, rest =>
    ⟨level, .opening tag⟩ :: prepend table (level + 1) tree (⟨level, .closing⟩ :: rest)

def prependBody (table : SymbolTable) (level : Nat) : Option Tree → List Element → List Element
  | none, rest => rest
  | some tree, rest => prepend table level tree rest

end

def elements (table : SymbolTable) (tree : Tree) : List Element :=
  prepend table 0 tree []

def render (layout : Layout) (table : SymbolTable) (tree : Tree) : String :=
  Page.render layout ((elements table tree).map Element.line)

end Frontend.Markup
