import Mathlib.Data.List.Basic
import Frontend.Tree.Walk

set_option autoImplicit false

namespace Frontend.Tree

mutual

def preorder : Tree → List Tree
  | .binary kind op type left right => .binary kind op type left right :: (left.preorder ++ right.preorder)
  | .unary kind op type operand => .unary kind op type operand :: operand.preorder
  | .literal value => [.literal value]
  | .reference type symbol => [.reference type symbol]
  | .assignment target value => .assignment target value :: value.preorder
  | .flow kind condition thenBranch elseBranch =>
    .flow kind condition thenBranch elseBranch
      :: (partPreorder condition ++ partPreorder thenBranch ++ partPreorder elseBranch)
  | .jump => [.jump]
  | .ret => [.ret]

def partPreorder : Option Tree → List Tree
  | none => []
  | some tree => tree.preorder

end

theorem part_preorder (part : Option Tree) : partPreorder part = part.toList.flatMap preorder := by
  cases part with
  | none => rfl
  | some tree => simp [partPreorder]

-- Children stand for all shapes at once. The lemmas about single shapes end here.
theorem preorder_children (tree : Tree) : tree.preorder = tree :: tree.children.flatMap preorder := by
  cases tree with
  | flow kind condition thenBranch elseBranch => simp [preorder, children, part_preorder]
  | _ => simp [preorder, children]

theorem child_induct {motive : Tree → Prop} (node : ∀ tree, (∀ child ∈ tree.children, motive child) → motive tree)
    (tree : Tree) : motive tree := by
  induction tree with
  | binary kind op type left right leftCase rightCase => exact node _ (by simp [children, leftCase, rightCase])
  | unary kind op type operand operandCase => exact node _ (by simp [children, operandCase])
  | assignment target value valueCase => exact node _ (by simp [children, valueCase])
  | flow kind condition thenBranch elseBranch conditionCase thenCase elseCase =>
      refine node _ fun child member => ?_
      simp only [children, List.mem_append, Option.mem_toList] at member
      rcases member with (present | present) | present
      · exact conditionCase child present
      · exact thenCase child present
      · exact elseCase child present
  | _ => exact node _ (by simp [children])

theorem child_smaller (tree child : Tree) (member : child ∈ tree.children) : sizeOf child < sizeOf tree := by
  cases tree with
  | binary kind op type left right =>
      rw [binary.sizeOf_spec]
      simp only [children, List.mem_cons, List.not_mem_nil, or_false] at member
      rcases member with rfl | rfl <;> omega
  | unary kind op type operand =>
      rw [unary.sizeOf_spec, List.mem_singleton.mp member]
      omega
  | assignment target value =>
      rw [assignment.sizeOf_spec, List.mem_singleton.mp member]
      omega
  | flow kind condition thenBranch elseBranch =>
      rw [flow.sizeOf_spec]
      simp only [children, List.mem_append, Option.mem_toList] at member
      rcases member with (rfl | rfl) | rfl <;> rw [Option.some.sizeOf_spec] <;> omega
  | _ => cases member

section Thorough

variable {σ : Type} (visitor : Visitor σ) (enter : Tree → σ → σ)

-- Deals with a tree first, and then makes all walks through its children in their order.
def Thorough : Prop :=
  ∀ (tree : Tree) (state : σ),
    tree.walk visitor state = tree.children.foldl (fun state child => child.walk visitor state) (enter tree state)

theorem walk_preorder (thorough : Thorough visitor enter) (tree : Tree) (state : σ) :
    tree.walk visitor state = tree.preorder.foldl (fun state inner => enter inner state) state := by
  induction tree using child_induct generalizing state with
  | node tree ih =>
      rw [thorough, preorder_children, List.foldl_cons, List.foldl_flatMap]
      exact List.foldl_ext _ _ _ fun state child member => ih child member state

theorem walk_part (part : Option Tree) (state : σ) :
    (walkPart visitor part).getD id state = part.toList.foldl (fun state child => child.walk visitor state) state := by
  cases part <;> rfl

-- The methods for the shapes are the defaults.
theorem node_thorough : Thorough { node := fun inner dispatch state => dispatch (enter inner state) } enter := by
  intro tree state
  cases tree with
  | flow kind condition thenBranch elseBranch => simp [walk, children, walk_part]
  | _ => simp [walk, children]

end Thorough

-- The method for assignments stands in for the default and makes the walk through the value itself.
theorem collector_thorough : Thorough collector fun tree noted => noteSymbol tree.handle? noted := by
  intro tree noted
  cases tree with
  | flow kind condition thenBranch elseBranch =>
      rw [children, List.foldl_append, List.foldl_append, ← walk_part, ← walk_part, ← walk_part]
      rfl
  | _ => rfl

theorem visited_preorder (tree : Tree) : tree.visited = tree.preorder.toArray := by
  rw [visited, walk_preorder _ _ (node_thorough _)]
  simp

theorem count_preorder (tree : Tree) : tree.count = tree.preorder.length := by
  rw [count, walk_preorder _ _ (node_thorough _)]
  simp

theorem note_symbols (trees : List Tree) (noted : Array Handle) :
    trees.foldl (fun noted inner => noteSymbol inner.handle? noted) noted = noted ++ trees.filterMap handle? := by
  induction trees generalizing noted with
  | nil => simp
  | cons tree trees ih =>
      rw [List.foldl_cons, ih]
      cases held : tree.handle? with
      | none => simp [noteSymbol, held]
      | some handle => simp [noteSymbol, held]

theorem handles_preorder (tree : Tree) : tree.handles = (tree.preorder.filterMap handle?).toArray := by
  rw [handles, walk_preorder _ _ collector_thorough, note_symbols]
  simp

theorem mem_handles (tree : Tree) (handle : Handle) :
    handle ∈ tree.handles ↔ tree.handle? = some handle ∨ ∃ child ∈ tree.children, handle ∈ child.handles := by
  simp only [handles_preorder, preorder_children tree, List.mem_toArray, List.mem_filterMap, List.mem_cons, List.mem_flatMap]
  constructor
  · rintro ⟨inner, rfl | ⟨child, member, below⟩, held⟩
    · exact Or.inl held
    · exact Or.inr ⟨child, member, inner, below, held⟩
  · rintro (held | ⟨child, member, inner, below, held⟩)
    · exact ⟨tree, Or.inl rfl, held⟩
    · exact ⟨inner, Or.inr ⟨child, member, below⟩, held⟩

def countAll : List Tree → Nat
  | [] => 0
  | tree :: trees => tree.count + countAll trees

theorem count_all_preorder (trees : List Tree) : countAll trees = (trees.flatMap preorder).length := by
  induction trees with
  | nil => rfl
  | cons tree trees ih => rw [countAll, count_preorder, ih, List.flatMap_cons, List.length_append]

theorem count_all_append (a b : List Tree) : countAll (a ++ b) = countAll a + countAll b := by
  simp [count_all_preorder]

theorem count_all_perm (a b : List Tree) (same : a.Perm b) : countAll a = countAll b := by
  rw [count_all_preorder, count_all_preorder]
  exact (same.flatMap_right preorder).length_eq

theorem count_children (tree : Tree) : tree.count = countAll tree.children + 1 := by
  rw [count_preorder, preorder_children, count_all_preorder, List.length_cons]

-- The node stands at this number, and all that is below it follows right after.
def StandsAt (nodes : List Tree) (number : Nat) (node : Tree) : Prop :=
  ∃ front back, nodes = front ++ (node.preorder ++ back) ∧ front.length = number

theorem forest_stands (trees : List Tree) (number : Nat) (node : Tree)
    (inside : ∀ tree ∈ trees, ∀ number, tree.preorder[number]? = some node → StandsAt tree.preorder number node)
    (here : (trees.flatMap preorder)[number]? = some node) : StandsAt (trees.flatMap preorder) number node := by
  induction trees generalizing number with
  | nil => simp at here
  | cons tree trees ih =>
      obtain ⟨first, others⟩ := List.forall_mem_cons.mp inside
      rw [List.flatMap_cons] at here ⊢
      by_cases early : number < tree.preorder.length
      · rw [List.getElem?_append_left early] at here
        obtain ⟨front, back, split, size⟩ := first number here
        exact ⟨front, back ++ trees.flatMap preorder, by simp [split], size⟩
      · rw [List.getElem?_append_right (Nat.le_of_not_lt early)] at here
        obtain ⟨front, back, split, size⟩ := ih _ others here
        refine ⟨tree.preorder ++ front, back, by simp [split], ?_⟩
        rw [List.length_append, size]
        omega

theorem preorder_stands (tree : Tree) (number : Nat) (node : Tree) (here : tree.preorder[number]? = some node) :
    StandsAt tree.preorder number node := by
  induction tree using child_induct generalizing number with
  | node tree ih =>
      cases number with
      | zero =>
          rw [preorder_children] at here
          cases here
          exact ⟨[], [], by simp, rfl⟩
      | succ number =>
          rw [preorder_children, List.getElem?_cons_succ] at here
          obtain ⟨front, back, split, size⟩ := forest_stands tree.children number node ih here
          exact ⟨tree :: front, back, by rw [preorder_children tree, split, List.cons_append], by simp [size]⟩

-- The shapes are not looked at: the tree itself, and then the same for each child in turn.
def descent (tree : Tree) : List Tree :=
  tree :: tree.children.attach.flatMap fun child => descent child.1
termination_by sizeOf tree
decreasing_by exact child_smaller tree child.1 child.2

theorem descent_preorder (tree : Tree) : tree.descent = tree.preorder := by
  induction tree using child_induct with
  | node tree ih =>
      have below : tree.children.attach.flatMap (fun child => descent child.1) =
          tree.children.attach.flatMap fun child => child.1.preorder :=
        List.flatMap_congr fun child _ => ih child.1 child.2
      rw [descent, preorder_children, below]
      simp

theorem traversals_agree (tree : Tree) :
    (∀ (σ : Type) (enter : Tree → σ → σ) (state : σ),
      tree.walk { node := fun inner dispatch state => dispatch (enter inner state) } state =
        tree.descent.foldl (fun state inner => enter inner state) state) ∧
    tree.visited.toList = tree.descent ∧
    tree.count = tree.descent.length ∧
    tree.handles.toList = tree.descent.filterMap handle? := by
  rw [descent_preorder, visited_preorder, count_preorder, handles_preorder]
  exact ⟨fun σ enter state => walk_preorder _ enter (node_thorough enter) tree state, rfl, rfl, rfl⟩

end Frontend.Tree
