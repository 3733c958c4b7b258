import Frontend.Proofs.Tree.Preorder
import Frontend.Tree.Release

set_option autoImplicit false

namespace Frontend.Tree

-- Releases several trees, the last one first.
def releaseAll {σ : Type} (released : Kind → σ → σ) : List Tree → σ → Nat × σ
  | [], state => (0, state)
  | tree :: trees, state =>
    let (later, state) := releaseAll released trees state
    let (count, state) := tree.releaseWith released state
    (later + count, state)

section Release

variable {σ : Type} (released : Kind → σ → σ)

theorem release_all_append (front back : List Tree) (state : σ) :
    releaseAll released (front ++ back) state =
      ((releaseAll released back state).1 + (releaseAll released front (releaseAll released back state).2).1,
        (releaseAll released front (releaseAll released back state).2).2) := by
  induction front with
  | nil => simp [releaseAll]
  | cons tree front ih => simp [releaseAll, ih, Nat.add_assoc]

theorem release_part (part : Option Tree) (state : σ) :
    releasePartWith released part state = releaseAll released part.toList state := by
  cases part <;> simp [releasePartWith, releaseAll]

theorem release_children (tree : Tree) (state : σ) :
    tree.releaseWith released state =
      ((releaseAll released tree.children state).1 + 1,
        released tree.kind (releaseAll released tree.children state).2) := by
  cases tree with
  | flow kind condition thenBranch elseBranch =>
      simp [releaseWith, children, release_part, release_all_append, Nat.add_assoc]
  | _ => simp [releaseWith, children, releaseAll, kind]

theorem release_forest (trees : List Tree) (state : σ)
    (each : ∀ tree ∈ trees, ∀ state,
      tree.releaseWith released state = (tree.count, (tree.preorder.map kind).foldr released state)) :
    releaseAll released trees state =
      (countAll trees, ((trees.flatMap preorder).map kind).foldr released state) := by
  induction trees with
  | nil => rfl
  | cons tree trees ih =>
      obtain ⟨first, others⟩ := List.forall_mem_cons.mp each
      simp [releaseAll, countAll, ih others, first, Nat.add_comm]

theorem release_preorder (tree : Tree) (state : σ) :
    tree.releaseWith released state = (tree.count, (tree.preorder.map kind).foldr released state) := by
  induction tree using child_induct generalizing state with
  | node tree ih =>
      rw [release_children, release_forest released tree.children state ih, ← count_children, preorder_children]
      rfl

end Release

theorem release_count (tree : Tree) : tree.release = tree.count := by
  rw [release, release_preorder]

theorem release_order (tree : Tree) : tree.releaseOrder.toList = (tree.preorder.map kind).reverse := by
  rw [releaseOrder, release_preorder]
  simp

-- In the last part `below` are the nodes below `node`. They are entered right after it and released right before it.
theorem release_reverses_walk (tree : Tree) :
    (∀ (σ : Type) (released : Kind → σ → σ) (state : σ),
      tree.releaseWith released state = (tree.count, (tree.visited.map kind).foldr released state)) ∧
    tree.release = tree.count ∧
    tree.releaseOrder = (tree.visited.map kind).reverse ∧
    ∀ number node, tree.visited[number]? = some node →
      ∃ front below back, front.length = number ∧ node.visited.toList = node :: below ∧
        tree.visited.toList = front ++ node :: below ++ back ∧
        tree.releaseOrder.toList =
          (back.map kind).reverse ++ (below.map kind).reverse ++ node.kind :: (front.map kind).reverse := by
  have order := release_order tree
  refine ⟨?_, release_count tree, ?_, ?_⟩
  · intro σ released state
    rw [release_preorder, visited_preorder]
    simp
  · rw [visited_preorder, ← Array.toList_inj, order]
    simp
  · intro number node here
    rw [visited_preorder, List.getElem?_toArray] at here
    obtain ⟨front, back, split, size⟩ := preorder_stands tree number node here
    rw [preorder_children node, List.cons_append] at split
    refine ⟨front, node.children.flatMap preorder, back, size, ?_, ?_, ?_⟩
    · rw [visited_preorder]
      exact preorder_children node
    · rw [visited_preorder, split]
      simp
    · rw [order, split]
      simp

def unconditional : Tree := .flow .loop none (some (.assignment none (.unary .output .empty none .jump))) (some .ret)

-- A function with parts that no function has. The loop in it is the third node to be entered.
def overfull : Tree :=
  .flow .function (some (.literal (.bool true))) (some unconditional)
    (some (.binary .list .list none (.reference none none) .jump))

theorem release_reverses_walk_overfull :
    overfull.visited[2]? = some unconditional ∧ overfull.count = 10 ∧ overfull.release = 10 ∧
    overfull.releaseOrder = #[.jump, .identifier, .list, .ret, .jump, .output, .assignment, .loop, .const, .function] ∧
    ∃ front below back, front.length = 2 ∧ unconditional.visited.toList = unconditional :: below ∧
      overfull.visited.toList = front ++ unconditional :: below ++ back ∧
      overfull.releaseOrder.toList =
        (back.map kind).reverse ++ (below.map kind).reverse ++ .loop :: (front.map kind).reverse := by
  obtain ⟨_, counted, _, inTurn⟩ := release_reverses_walk overfull
  have entered : overfull.visited[2]? = some unconditional := rfl
  have size : overfull.count = 10 := rfl
  exact ⟨entered, size, counted.trans size, rfl, inTurn 2 unconditional entered⟩

end Frontend.Tree
