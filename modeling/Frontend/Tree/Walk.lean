import Frontend.Tree.Basic

set_option autoImplicit false

namespace Frontend

/-- What a walk does with the trees it meets. Each one is met by `node`, which hands it on to the method
for its shape. That method is given the walks through the children and has to make them itself. -/
structure Visitor (σ : Type) where
  node : Tree → (σ → σ) → σ → σ := fun _ dispatch => dispatch
  binary : BinaryKind → Label → Option ValueType → (σ → σ) → (σ → σ) → σ → σ :=
    fun _ _ _ left right state => right (left state)
  unary : UnaryKind → Label → Option ValueType → (σ → σ) → σ → σ := fun _ _ _ operand => operand
  literal : Literal → σ → σ := fun _ state => state
  reference : Option ValueType → Option Handle → σ → σ := fun _ _ state => state
  assignment : Option Handle → (σ → σ) → σ → σ := fun _ value => value
  flow : FlowKind → Option (σ → σ) → Option (σ → σ) → Option (σ → σ) → σ → σ :=
    fun _ condition thenBranch elseBranch state =>
      elseBranch.getD id (thenBranch.getD id (condition.getD id state))
  jump : σ → σ := fun state => state
  ret : σ → σ := fun state => state

namespace Tree

mutual

def walk {σ : Type} (visitor : Visitor σ) : Tree → σ → σ
  | .binary kind op type left right =>
    visitor.node (.binary kind op type left right)
      (visitor.binary kind op type (walk visitor left) (walk visitor right))
  | .unary kind op type operand =>
    visitor.node (.unary kind op type operand) (visitor.unary kind op type (walk visitor operand))
  | .literal value => visitor.node (.literal value) (visitor.literal value)
  | .reference type symbol =>
    visitor.node (.reference type symbol) (visitor.reference type symbol)
  | .assignment target value =>
    visitor.node (.assignment target value) (visitor.assignment target (walk visitor value))
  | .flow kind condition thenBranch elseBranch =>
    visitor.node (.flow kind condition thenBranch elseBranch)
      (visitor.flow kind (walkPart visitor condition) (walkPart visitor thenBranch)
        (walkPart visitor elseBranch))
  | .jump => visitor.node .jump visitor.jump
  | .ret => visitor.node .ret visitor.ret

def walkPart {σ : Type} (visitor : Visitor σ) : Option Tree → Option (σ → σ)
  | none => none
  | some tree => some (walk visitor tree)

end

def count (tree : Tree) : Nat :=
  tree.walk { node := fun _ dispatch total => dispatch (total + 1) } 0

def visited (tree : Tree) : Array Tree :=
  tree.walk { node := fun inner dispatch trees => dispatch (trees.push inner) } #[]

def noteSymbol (symbol : Option Handle) (handles : Array Handle) : Array Handle :=
  match symbol with
  | none => handles
  | some handle => handles.push handle

-- Each target comes before the handles in its value.
def collector : Visitor (Array Handle) where
  reference _ symbol handles := noteSymbol symbol handles
  assignment target value handles := value (noteSymbol target handles)

def handles (tree : Tree) : Array Handle :=
  tree.walk collector #[]

end Tree

end Frontend
