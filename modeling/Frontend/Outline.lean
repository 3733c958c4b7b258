import Frontend.Page
import Frontend.SymbolTable.Names
import Frontend.Text.Control
import Frontend.Tree.Basic

set_option autoImplicit false

namespace Frontend.Outline

inductive Content where
  | node (text : String)
  | caption (text : String)
  | missing
deriving DecidableEq

structure Entry where
  level : Nat
  content : Content

def Content.text : Content → String
  | .node text => Text.printable text
  | .caption text => text
  | .missing => "NULL"

def Entry.line (entry : Entry) : Line :=
  ⟨entry.level, entry.content.text⟩

def literalLabel : Literal → String
  | .int _ => "inumber"
  | .double _ => "dnumber"
  | .char _ => "cnumber"
  | .bool _ => "bnumber"
  | .intArray _ => "iarraynumber"
  | .doubleArray _ => "darraynumber"
  | .charArray _ => "carraynumber"
  | .boolArray _ => "barraynumber"

def nodeText (table : SymbolTable) : Tree → String
  | .binary _ op _ _ _ => "binop " ++ op.text
  | .unary .op op _ _ => "unop " ++ op.text
  | .unary .input _ _ _ => "vox"
  | .unary .output _ _ _ => "wouf"
  | .literal value => literalLabel value ++ " " ++ value.text
  | .reference _ symbol => "ref " ++ table.shownName symbol
  | .assignment target _ => "= " ++ table.shownName target
  | .flow .branch _ _ _ => "flow - if"
  | .flow .loop _ _ _ => "flow - while"
  | .flow .function _ _ _ => "flow - func"
  | .jump => "goto"
  | .ret => "return Expression"

def nodeEntry (table : SymbolTable) (level : Nat) (tree : Tree) : Entry :=
  ⟨level, .node (nodeText table tree)⟩

mutual

def prepend (table : SymbolTable) (level : Nat) : Tree → List Entry → List Entry
  | .binary kind op type left right, rest =>
    nodeEntry table level (.binary kind op type left right)
      :: prepend table (level + 1) left (prepend table (level + 1) right rest)
  | .unary kind op type operand, rest =>
    nodeEntry table level (.unary kind op type operand) :: prepend table (level + 1) operand rest
  | .literal value, rest => nodeEntry table level (.literal value) :: rest
  | .reference type symbol, rest => nodeEntry table level (.reference type symbol) :: rest
  | .assignment target value, rest =>
    nodeEntry table level (.assignment target value) :: prepend table (level + 1) value rest
  | .flow .branch condition thenBranch elseBranch, rest =>
    nodeEntry table level (.flow .branch condition thenBranch elseBranch)
      :: prependPart table (level + 1) condition
        (prependBranch table (level + 1) "true-branch" thenBranch
          (prependBranch table (level + 1) "false-branch" elseBranch rest))
  | .flow .loop condition thenBranch elseBranch, rest =>
    nodeEntry table level (.flow .loop condition thenBranch elseBranch)
      :: prependPart table (level + 1) condition
        (prependBranch table (level + 1) "loop-body" thenBranch rest)
  | .flow .function condition thenBranch elseBranch, rest =>
    nodeEntry table level (.flow .function condition thenBranch elseBranch)
      :: prependPart table (level + 1) thenBranch rest
  | .jump, rest => nodeEntry table level .jump :: rest
  | .ret, rest => nodeEntry table level .ret :: rest

def prependPart (table : SymbolTable) (level : Nat) : Option Tree → List Entry → List Entry
  | none, rest => ⟨level, .missing⟩ :: rest
  | some tree, rest => prepend table level tree rest

-- A caption on the level of the children, and the branch one level below it.
def prependBranch (table : SymbolTable) (level : Nat) (caption : String) :
    Option Tree → List Entry → List Entry
  | none, rest => rest
  | some tree, rest => ⟨level, .caption caption⟩ :: prepend table (level + 1) tree rest

end

def entries (table : SymbolTable) (tree : Tree) : List Entry :=
  prepend table 0 tree []

def render (layout : Layout) (table : SymbolTable) (tree : Tree) : String :=
  Page.render layout ((entries table tree).map Entry.line)

end Frontend.Outline
