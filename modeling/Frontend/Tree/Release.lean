import Frontend.Tree.Basic

set_option autoImplicit false

namespace Frontend.Tree

mutual

def releaseWith {σ : Type} (released : Kind → σ → σ) : Tree → σ → Nat × σ
  | .binary kind op type left right, state =>
    let (rightCount, state) := releaseWith released right state
    let (leftCount, state) := releaseWith released left state
    (rightCount + leftCount + 1, released (Tree.binary kind op type left right).kind state)
  | .unary kind op type operand, state =>
    let (operandCount, state) := releaseWith released operand state
    (operandCount + 1, released (Tree.unary kind op type operand).kind state)
  | .literal _, state => (1, released .const state)
  | .reference _ _, state => (1, released .identifier state)
  | .assignment _ value, state =>
    let (valueCount, state) := releaseWith released value state
    (valueCount + 1, released .assignment state)
  | .flow kind condition thenBranch elseBranch, state =>
    let (elseCount, state) := releasePartWith released elseBranch state
    let (thenCount, state) := releasePartWith released thenBranch state
    let (conditionCount, state) := releasePartWith released condition state
    (elseCount + thenCount + conditionCount + 1,
      released (Tree.flow kind condition thenBranch elseBranch).kind state)
  | .jump, state => (1, released .jump state)
  | .ret, state => (1, released .ret state)

def releasePartWith {σ : Type} (released : Kind → σ → σ) : Option Tree → σ → Nat × σ
  | none, state => (0, state)
  | some tree, state => releaseWith released tree state

end

def release (tree : Tree) : Nat :=
  (tree.releaseWith (fun _ state => state) ()).1

def releaseOrder (tree : Tree) : Array Kind :=
  (tree.releaseWith (fun kind kinds => kinds.push kind) #[]).2

end Frontend.Tree
