import Frontend.Options.Basic
import Frontend.SymbolTable.Names
import Frontend.Tree.Basic

set_option autoImplicit false

namespace Frontend

inductive BuildError where
  | outOfSpace (what : String)
  | budgetExceeded (max : Nat)
  | invalidOperator (error : LabelError)
deriving DecidableEq

namespace BuildError

def message : BuildError → String
  | .outOfSpace what => "out of space while allocating " ++ what
  | .budgetExceeded max => "node budget of " ++ Decimal.text max ++ " exceeded"
  | .invalidOperator error => error.message

def diagnostic : BuildError → Diagnostic
  | .outOfSpace what => .ofMessage .outOfSpace [what]
  | .budgetExceeded max => .ofMessage .nodeBudgetExceeded [Decimal.text max]
  | .invalidOperator (.tooLong operator) =>
    .ofMessage .operatorTooLong [operator, Decimal.text Label.capacity]

end BuildError

inductive Production where
  | literal (value : Literal)
  | reference (symbol : Option Handle)
  | assignment (target : Option Handle) (value : Tree)
  | binary (operator : String) (left right : Tree)
  | sequence (left right : Tree)
  | unary (operator : String) (operand : Tree)
  | input (target : Tree)
  | output (value : Tree)
  | branch (condition : Tree) (thenBranch elseBranch : Option Tree)
  | loop (condition : Tree) (body : Option Tree)
  | function (body : Option Tree)
  | jump
  | ret

namespace Production

def operands : Production → List Tree
  | .literal _ => []
  | .reference _ => []
  | .assignment _ value => [value]
  | .binary _ left right => [left, right]
  | .sequence left right => [left, right]
  | .unary _ operand => [operand]
  | .input target => [target]
  | .output value => [value]
  | .branch condition thenBranch elseBranch =>
    condition :: (thenBranch.toList ++ elseBranch.toList)
  | .loop condition body => condition :: body.toList
  | .function body => body.toList
  | .jump => []
  | .ret => []

def shape : Production → String
  | .literal _ => "literal node"
  | .reference _ => "reference node"
  | .assignment _ _ => "assignment node"
  | .binary _ _ _ => "binary node"
  | .sequence _ _ => "binary node"
  | .unary _ _ => "unary node"
  | .input _ => "unary node"
  | .output _ => "unary node"
  | .branch _ _ _ => "control flow node"
  | .loop _ _ => "control flow node"
  | .function _ => "control flow node"
  | .jump => "jump node"
  | .ret => "return node"

-- Operators take the type of their left or only operand, references that of the record they point to. Nothing is checked but
-- the length of an operator.
def tree (table : SymbolTable) : Production → Except LabelError Tree
  | .literal value => .ok (.literal value)
  | .reference symbol => .ok (.reference (symbol.bind table.typeOf?) symbol)
  | .assignment target value => .ok (.assignment target value)
  | .binary operator left right =>
    match Label.ofText operator with
    | .error error => .error error
    | .ok label => .ok (.binary .op label left.type left right)
  | .sequence left right => .ok (.binary .list .list left.type left right)
  | .unary operator operand =>
    match Label.ofText operator with
    | .error error => .error error
    | .ok label => .ok (.unary .op label operand.type operand)
  | .input target => .ok (.unary .input .empty target.type target)
  | .output value => .ok (.unary .output .empty value.type value)
  | .branch condition thenBranch elseBranch =>
    .ok (.flow .branch (some condition) thenBranch elseBranch)
  | .loop condition body => .ok (.flow .loop (some condition) body none)
  | .function body => .ok (.flow .function none body none)
  | .jump => .ok .jump
  | .ret => .ok .ret

end Production

structure Builder where
  limits : BuildLimits := {}
  allocated : Nat := 0

namespace Builder

def reserve (builder : Builder) (what : String) :
    Except Halt (Except BuildError Unit × Builder) :=
  match builder.limits.maxNodes with
  | none => .ok (.ok (), { builder with allocated := builder.allocated + 1 })
  | some max =>
    if max ≤ builder.allocated then
      match builder.limits.policy.exhausted what with
      | .error halt => .error halt
      | .ok () => .ok (.error (.budgetExceeded max), builder)
    else
      .ok (.ok (), { builder with allocated := builder.allocated + 1 })

-- The operator is looked at before the budget.
def build (builder : Builder) (table : SymbolTable) (production : Production) :
    Except Halt (Except BuildError Tree × Builder) :=
  match production.tree table with
  | .error error => .ok (.error (.invalidOperator error), builder)
  | .ok tree =>
    match builder.reserve production.shape with
    | .error halt => .error halt
    | .ok (.error error, builder) => .ok (.error error, builder)
    | .ok (.ok (), builder) => .ok (.ok tree, builder)

end Builder

end Frontend
