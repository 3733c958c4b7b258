import Frontend.Builder

set_option autoImplicit false

namespace Frontend

inductive Built : Tree → Prop where
  | made (builder after : Builder) (table : SymbolTable) (production : Production) (tree : Tree)
      (operands : ∀ operand ∈ production.operands, Built operand)
      (result : builder.build table production = .ok (.ok tree, after)) : Built tree

inductive Everywhere (rule : Tree → Prop) : Tree → Prop where
  | node (tree : Tree) (here : rule tree) (below : ∀ child ∈ tree.children, Everywhere rule child) : Everywhere rule tree

theorem flow_parts (kind : FlowKind) (condition thenBranch elseBranch : Option Tree) (rule : Tree → Prop)
    (below : ∀ child ∈ (Tree.flow kind condition thenBranch elseBranch).children, rule child) :
    (∀ part, condition = some part → rule part) ∧ (∀ part, thenBranch = some part → rule part) ∧
      ∀ part, elseBranch = some part → rule part := by
  simp only [Tree.children, List.mem_append, Option.mem_toList] at below
  exact ⟨fun part present => below part (Or.inl (Or.inl present)), fun part present => below part (Or.inl (Or.inr present)),
    fun part present => below part (Or.inr present)⟩

theorem build_tree (builder after : Builder) (table : SymbolTable) (production : Production) (tree : Tree)
    (result : builder.build table production = .ok (.ok tree, after)) : production.tree table = .ok tree := by
  unfold Builder.build at result
  cases made : production.tree table with
  | error error => simp [made] at result
  | ok shaped =>
      simp only [made] at result
      split at result
      · cases result
      · cases result
      · cases result
        rfl

theorem binary_made (table : SymbolTable) (operator : String) (left right tree : Tree)
    (made : (Production.binary operator left right).tree table = .ok tree) :
    ∃ label, tree = .binary .op label left.type left right := by
  simp only [Production.tree] at made
  split at made
  · cases made
  · exact ⟨_, (Except.ok.inj made).symm⟩

theorem unary_made (table : SymbolTable) (operator : String) (operand tree : Tree)
    (made : (Production.unary operator operand).tree table = .ok tree) :
    ∃ label, tree = .unary .op label operand.type operand := by
  simp only [Production.tree] at made
  split at made
  · cases made
  · exact ⟨_, (Except.ok.inj made).symm⟩

theorem production_children (table : SymbolTable) (production : Production) (tree : Tree)
    (made : production.tree table = .ok tree) : tree.children = production.operands := by
  cases production with
  | binary operator left right =>
      obtain ⟨label, rfl⟩ := binary_made table operator left right tree made
      rfl
  | unary operator operand =>
      obtain ⟨label, rfl⟩ := unary_made table operator operand tree made
      rfl
  | loop condition body =>
      cases made
      simp [Tree.children, Production.operands]
  | function body =>
      cases made
      simp [Tree.children, Production.operands]
  | _ =>
      cases made
      rfl

-- A rule for the root of what a production makes holds at all nodes: each of them was such a root.
theorem built_everywhere (rule : Tree → Prop)
    (root : ∀ table (production : Production) tree, production.tree table = .ok tree → rule tree)
    (tree : Tree) (built : Built tree) : Everywhere rule tree := by
  induction built with
  | made builder after table production tree operands result ih =>
      have made := build_tree builder after table production tree result
      refine .node tree (root table production tree made) ?_
      rw [production_children table production tree made]
      exact ih

def RegularFlow : Tree → Prop
  | .flow .branch condition _ _ => condition.isSome = true
  | .flow .loop condition _ elseBranch => condition.isSome = true ∧ elseBranch = none
  | .flow .function condition _ elseBranch => condition = none ∧ elseBranch = none
  | _ => True

def Regular (tree : Tree) : Prop :=
  Everywhere RegularFlow tree

def SequenceLabelled : Tree → Prop
  | .binary .list op _ _ _ => op = .list
  | _ => True

def TransferUnlabelled : Tree → Prop
  | .unary .input op _ _ => op = .empty
  | .unary .output op _ _ => op = .empty
  | _ => True

def OperandTyped : Tree → Prop
  | .binary _ _ type left _ => type = left.type
  | .unary _ _ type operand => type = operand.type
  | _ => True

structure Shaped (tree : Tree) : Prop where
  flow : RegularFlow tree
  sequence : SequenceLabelled tree
  transfer : TransferUnlabelled tree
  typed : OperandTyped tree

theorem production_shaped (table : SymbolTable) (production : Production) (tree : Tree)
    (made : production.tree table = .ok tree) : Shaped tree := by
  cases production with
  | binary operator left right =>
      obtain ⟨label, rfl⟩ := binary_made table operator left right tree made
      exact ⟨trivial, trivial, trivial, rfl⟩
  | sequence left right =>
      cases made
      exact ⟨trivial, rfl, trivial, rfl⟩
  | unary operator operand =>
      obtain ⟨label, rfl⟩ := unary_made table operator operand tree made
      exact ⟨trivial, trivial, trivial, rfl⟩
  | input target =>
      cases made
      exact ⟨trivial, trivial, rfl, rfl⟩
  | output value =>
      cases made
      exact ⟨trivial, trivial, rfl, rfl⟩
  | branch condition thenBranch elseBranch =>
      cases made
      exact ⟨rfl, trivial, trivial, trivial⟩
  | loop condition body =>
      cases made
      exact ⟨⟨rfl, rfl⟩, trivial, trivial, trivial⟩
  | function body =>
      cases made
      exact ⟨⟨rfl, rfl⟩, trivial, trivial, trivial⟩
  | _ =>
      cases made
      exact ⟨trivial, trivial, trivial, trivial⟩

theorem built_regular (tree : Tree) (built : Built tree) : Regular tree :=
  built_everywhere RegularFlow (fun table production tree made => (production_shaped table production tree made).flow) tree built

end Frontend
