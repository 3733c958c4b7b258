import Frontend.SymbolTable.Basic
import Frontend.Label
import Frontend.Literal

set_option autoImplicit false

namespace Frontend

inductive BinaryKind where
  | op
  | list
deriving DecidableEq

inductive UnaryKind where
  | op
  | input
  | output
deriving DecidableEq

inductive FlowKind where
  | branch
  | loop
  -- Has only a body, in the place of the first branch.
  | function
deriving DecidableEq

inductive Tree where
  | binary (kind : BinaryKind) (op : Label) (type : Option ValueType) (left right : Tree)
  | unary (kind : UnaryKind) (op : Label) (type : Option ValueType) (operand : Tree)
  | literal (value : Literal)
  -- The type is the one that the record had.
  | reference (type : Option ValueType) (symbol : Option Handle)
  | assignment (target : Option Handle) (value : Tree)
  | flow (kind : FlowKind) (condition thenBranch elseBranch : Option Tree)
  | jump
  | ret

namespace Tree

inductive Kind where
  | binaryOp
  | unaryOp
  | assignment
  | const
  | identifier
  | branch
  | loop
  | jump
  | list
  | input
  | output
  | ret
  | function
deriving DecidableEq

def kind : Tree → Kind
  | .binary .op _ _ _ _ => .binaryOp
  | .binary .list _ _ _ _ => .list
  | .unary .op _ _ _ => .unaryOp
  | .unary .input _ _ _ => .input
  | .unary .output _ _ _ => .output
  | .literal _ => .const
  | .reference _ _ => .identifier
  | .assignment _ _ => .assignment
  | .flow .branch _ _ _ => .branch
  | .flow .loop _ _ _ => .loop
  | .flow .function _ _ _ => .function
  | .jump => .jump
  | .ret => .ret

def type : Tree → Option ValueType
  | .binary _ _ type _ _ => type
  | .unary _ _ type _ => type
  | .literal value => some value.type
  | .reference type _ => type
  | .assignment _ _ => none
  | .flow _ _ _ _ => none
  | .jump => none
  | .ret => none

def handle? : Tree → Option Handle
  | .reference _ symbol => symbol
  | .assignment target _ => target
  | _ => none

def children : Tree → List Tree
  | .binary _ _ _ left right => [left, right]
  | .unary _ _ _ operand => [operand]
  | .literal _ => []
  | .reference _ _ => []
  | .assignment _ value => [value]
  | .flow _ condition thenBranch elseBranch =>
    condition.toList ++ thenBranch.toList ++ elseBranch.toList
  | .jump => []
  | .ret => []

mutual

def same : Tree → Tree → Bool
  | .binary kind op type left right, .binary kind' op' type' left' right' =>
    kind == kind' && op == op' && type == type' && same left left' && same right right'
  | .unary kind op type operand, .unary kind' op' type' operand' =>
    kind == kind' && op == op' && type == type' && same operand operand'
  | .literal value, .literal value' => value.same value'
  | .reference type symbol, .reference type' symbol' => type == type' && symbol == symbol'
  | .assignment target value, .assignment target' value' => target == target' && same value value'
  | .flow kind condition thenBranch elseBranch, .flow kind' condition' thenBranch' elseBranch' =>
    kind == kind' && samePart condition condition' && samePart thenBranch thenBranch'
      && samePart elseBranch elseBranch'
  | .jump, .jump => true
  | .ret, .ret => true
  | _, _ => false

def samePart : Option Tree → Option Tree → Bool
  | none, none => true
  | some tree, some tree' => same tree tree'
  | _, _ => false

end

@[elab_as_elim, induction_eliminator]
theorem induct {motive : Tree → Prop}
    (binary : ∀ kind op type left right, motive left → motive right →
      motive (.binary kind op type left right))
    (unary : ∀ kind op type operand, motive operand → motive (.unary kind op type operand))
    (literal : ∀ value, motive (.literal value))
    (reference : ∀ type symbol, motive (.reference type symbol))
    (assignment : ∀ target value, motive value → motive (.assignment target value))
    (flow : ∀ kind condition thenBranch elseBranch,
      (∀ tree, condition = some tree → motive tree) →
      (∀ tree, thenBranch = some tree → motive tree) →
      (∀ tree, elseBranch = some tree → motive tree) →
      motive (.flow kind condition thenBranch elseBranch))
    (jump : motive .jump) (ret : motive .ret) (tree : Tree) : motive tree :=
  @Tree.rec motive (fun part => ∀ tree, part = some tree → motive tree)
    binary unary literal reference assignment flow jump ret
    (fun _ absent => nomatch absent)
    (fun _ treeCase _ present => Option.some.inj present ▸ treeCase)
    tree

end Tree

end Frontend
