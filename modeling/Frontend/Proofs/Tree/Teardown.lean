import Frontend.Proofs.Tree.Preorder
import Frontend.Tree.Teardown

set_option autoImplicit false

namespace Frontend.Tree

def ownsNothing (tree : Tree) : Bool := !tree.owns

def husk : Tree → Tree
  | .binary kind op type _ _ => .binary kind op type .jump .jump
  | .unary kind op type _ => .unary kind op type .jump
  | .assignment target _ => .assignment target .jump
  | .flow kind _ _ _ => .flow kind none none none
  | tree => tree

theorem husk_owns (tree : Tree) : tree.husk.owns = tree.owns := by
  cases tree <;> rfl

theorem husk_children (tree child : Tree) (member : child ∈ tree.husk.children) : child = .jump := by
  cases tree with
  | binary kind op type left right => simpa [husk, children] using member
  | unary kind op type operand => simpa [husk, children] using member
  | assignment target value => simpa [husk, children] using member
  | _ => simp [husk, children] at member

theorem husk_places (tree : Tree) : tree.husk.children.length ≤ 2 := by
  cases tree <;> simp [husk, children]

theorem children_none (tree : Tree) (bare : tree.owns = false) : tree.children = [] := by
  cases tree with
  | literal value => rfl
  | reference type symbol => rfl
  | jump => rfl
  | ret => rfl
  | _ => cases bare

namespace Teardown

theorem queue_all (trees : List Tree) (teardown : Teardown) :
    trees.foldl queue teardown =
      { teardown with
        pending := (trees.filter owns).reverse ++ teardown.pending
        discarded := teardown.discarded ++ trees.filter ownsNothing } := by
  induction trees generalizing teardown with
  | nil => simp
  | cons tree trees ih =>
      rw [List.foldl_cons, ih, queue]
      cases owner : tree.owns with
      | true => simp [owner, ownsNothing]
      | false => simp [owner, ownsNothing]

theorem strip_queues (teardown : Teardown) (tree : Tree) :
    teardown.strip tree = (tree.children.reverse.foldl queue teardown, tree.husk) := by
  cases tree with
  | flow kind condition thenBranch elseBranch =>
      cases condition <;> cases thenBranch <;> cases elseBranch <;> rfl
  | _ => rfl

theorem strip_spec (teardown : Teardown) (tree : Tree) :
    teardown.strip tree =
      ({ teardown with
          pending := tree.children.filter owns ++ teardown.pending
          discarded := teardown.discarded ++ tree.children.reverse.filter ownsNothing },
        tree.husk) := by
  rw [strip_queues, queue_all, List.filter_reverse, List.reverse_reverse]

end Teardown

-- A child that owns nothing is all there is below its place, so that the work list needs only the others.
theorem preorder_bare (tree : Tree) (bare : tree.owns = false) : tree.preorder = [tree] := by
  rw [preorder_children, children_none tree bare, List.flatMap_nil]

theorem owners_below (trees : List Tree) :
    ((trees.filter owns).flatMap preorder).filter owns = (trees.flatMap preorder).filter owns := by
  induction trees with
  | nil => rfl
  | cons tree trees ih =>
      cases owner : tree.owns with
      | true => simp [owner, ih]
      | false => simp [owner, ih, preorder_bare tree owner]

theorem others_below (trees : List Tree) :
    (trees.filter ownsNothing ++ ((trees.filter owns).flatMap preorder).filter ownsNothing).Perm
      ((trees.flatMap preorder).filter ownsNothing) := by
  induction trees with
  | nil => exact .nil
  | cons tree trees ih =>
      cases owner : tree.owns with
      | true =>
          have apart : tree.ownsNothing = false := by simp [ownsNothing, owner]
          simp only [List.filter_cons, owner, apart, List.flatMap_cons, List.filter_append, Bool.false_eq_true, if_true,
            if_false]
          exact (List.perm_append_comm_assoc _ _ _).trans (ih.append_left _)
      | false =>
          have apart : tree.ownsNothing = true := by simp [ownsNothing, owner]
          simp only [List.filter_cons, owner, apart, List.flatMap_cons, preorder_bare tree owner, List.cons_append,
            Bool.false_eq_true, if_true, if_false]
          exact ih.cons tree

-- The children that go at once, in the order in which they are taken away.
def bareChildren (tree : Tree) : List Tree := tree.children.reverse.filter ownsNothing

theorem bare_below (tree : Tree) :
    (tree.bareChildren ++ ((tree.children.filter owns).flatMap preorder).filter ownsNothing).Perm
      ((tree.children.flatMap preorder).filter ownsNothing) := by
  have order : tree.bareChildren.Perm (tree.children.filter ownsNothing) := by
    rw [bareChildren, List.filter_reverse]
    exact List.reverse_perm _
  exact (order.append_right _).trans (others_below tree.children)

-- What waits still stands, with all that is below it, behind what came off the list already.
structure Progress (tree : Tree) (drop : Drop) : Prop where
  origin : drop.tree = tree
  waiting : ∀ node ∈ drop.work.pending, node.owns = true
  hollow : ∀ place ∈ drop.places, place = .jump
  popped : drop.work.popped.toList ++ (drop.work.pending.flatMap preorder).filter owns =
    (tree.children.flatMap preorder).filter owns
  discarded : drop.work.discarded.toList = (tree :: drop.work.popped.toList).flatMap bareChildren
  others : (drop.work.discarded.toList ++ (drop.work.pending.flatMap preorder).filter ownsNothing).Perm
    ((tree.children.flatMap preorder).filter ownsNothing)

theorem start_spec (tree : Tree) :
    Drop.start tree = ⟨tree, ⟨tree.children.filter owns, #[], tree.bareChildren.toArray⟩, tree.husk.children⟩ := by
  rw [Drop.start, Teardown.strip_spec]
  simp [bareChildren]

theorem start_progress (tree : Tree) : Progress tree (Drop.start tree) := by
  rw [start_spec]
  refine ⟨rfl, ?_, husk_children tree, owners_below tree.children, by simp, bare_below tree⟩
  intro node member
  exact (List.mem_filter.mp member).2

-- A node comes off the list, and the children that own others take its place there.
def Drop.pop (drop : Drop) (node : Tree) (pending : List Tree) : Drop :=
  { drop with
    work := ⟨node.children.filter owns ++ pending, drop.work.popped.push node, drop.work.discarded ++ node.bareChildren⟩ }

theorem pop_progress (tree node : Tree) (pending : List Tree) (drop : Drop) (next : drop.work.pending = node :: pending)
    (progress : Progress tree drop) : Progress tree (drop.pop node pending) := by
  obtain ⟨origin, waiting, hollow, popped, discarded, others⟩ := progress
  rw [next] at waiting popped others
  obtain ⟨owner, waiting⟩ := List.forall_mem_cons.mp waiting
  have apart : node.ownsNothing = false := by simp [ownsNothing, owner]
  refine ⟨origin, ?_, hollow, ?_, ?_, ?_⟩
  · intro other member
    rcases List.mem_append.mp member with child | waits
    · exact (List.mem_filter.mp child).2
    · exact waiting other waits
  · rw [← popped, List.flatMap_cons, preorder_children node]
    simp [Drop.pop, owner, owners_below]
  · simp [Drop.pop, discarded]
  · rw [List.flatMap_cons, preorder_children node, List.cons_append, List.filter_cons_of_neg (by simp [apart]),
      List.filter_append] at others
    simp only [Drop.pop, Array.toList_appendList, List.flatMap_append, List.filter_append, List.append_assoc]
    rw [← List.append_assoc node.bareChildren]
    exact ((bare_below node).append_right _).append_left _ |>.trans others

-- The drop of a node that came off the list.
structure Hollow (outer inner : Drop) : Prop where
  last : ∃ node, outer.work.popped.back? = some node ∧ inner.tree = node.husk
  idle : inner.work.pending = []
  unpopped : inner.work.popped = #[]
  hollow : ∀ place ∈ inner.places, place = .jump

theorem start_hollow (drop : Drop) (node : Tree) (pending : List Tree) :
    Hollow (drop.pop node pending) (Drop.start node.husk) := by
  rw [start_spec]
  refine ⟨⟨node, by simp [Drop.pop], rfl⟩, ?_, rfl, husk_children node.husk⟩
  apply List.filter_eq_nil_iff.mpr
  intro child member
  rw [husk_children node child member]
  decide

inductive Stage (tree : Tree) : Drops → Prop where
  | alone (first : Drop) (progress : Progress tree first) : Stage tree [first]
  | nested (inner first : Drop) (hollow : Hollow first inner) (progress : Progress tree first) : Stage tree [inner, first]

-- All that a step can do at such a stage.
inductive Moves : Drops → Drops → Prop where
  | pop (first : Drop) (node : Tree) (pending : List Tree) (next : first.work.pending = node :: pending) :
      Moves [first] [Drop.start node.husk, first.pop node pending]
  | clear (drop : Drop) (outer : Drops) (place : Tree) (places : List Tree) (next : drop.places = place :: places) :
      Moves (drop :: outer) ({ drop with places := places } :: outer)
  | leave (inner first : Drop) : Moves [inner, first] [first]

namespace Drops

theorem enter_owner (drops : Drops) (tree : Tree) (owner : tree.owns = true) : drops.enter tree = .start tree :: drops := by
  rw [enter, if_pos owner]

theorem step_pop (drop : Drop) (outer : Drops) (node : Tree) (pending : List Tree) (next : drop.work.pending = node :: pending)
    (owner : node.owns = true) : step (drop :: outer) = some (.start node.husk :: drop.pop node pending :: outer) := by
  rw [← enter_owner _ node.husk (by rw [husk_owns, owner])]
  simp only [step, next, Teardown.strip_spec]
  rfl

theorem step_clear (drop : Drop) (outer : Drops) (places : List Tree) (idle : drop.work.pending = [])
    (next : drop.places = .jump :: places) : step (drop :: outer) = some ({ drop with places := places } :: outer) := by
  simp only [step, idle, next]
  rfl

theorem step_end (drop : Drop) (outer : Drops) (idle : drop.work.pending = []) (empty : drop.places = []) :
    step (drop :: outer) = if outer.isEmpty then none else some outer := by
  simp only [step, idle, empty]

theorem stage_cases (tree : Tree) (drops : Drops) (stage : Stage tree drops) :
    (∃ last, drops = [last] ∧ Progress tree last ∧ last.work.pending = [] ∧ drops.step = none) ∨
      ∃ next, drops.step = some next ∧ Moves drops next := by
  cases stage with
  | alone first progress =>
      cases waiting : first.work.pending with
      | cons node pending =>
          have owner := progress.waiting node (by simp [waiting])
          exact Or.inr ⟨_, step_pop first [] node pending waiting owner, .pop first node pending waiting⟩
      | nil =>
          cases held : first.places with
          | cons place places =>
              obtain rfl := progress.hollow place (by simp [held])
              exact Or.inr ⟨_, step_clear first [] places waiting held, .clear first [] .jump places held⟩
          | nil => exact Or.inl ⟨first, rfl, progress, waiting, step_end first [] waiting held⟩
  | nested inner first hollow progress =>
      cases held : inner.places with
      | cons place places =>
          obtain rfl := hollow.hollow place (by simp [held])
          exact Or.inr ⟨_, step_clear inner [first] places hollow.idle held, .clear inner [first] .jump places held⟩
      | nil => exact Or.inr ⟨_, step_end inner [first] hollow.idle held, .leave inner first⟩

theorem stage_moves (tree : Tree) (drops next : Drops) (stage : Stage tree drops) (moved : drops.step = some next) :
    Moves drops next := by
  rcases stage_cases tree drops stage with ⟨_, _, _, _, ended⟩ | ⟨other, step, moves⟩
  · rw [ended] at moved
    cases moved
  · rw [step] at moved
    cases moved
    exact moves

theorem stage_ended (tree : Tree) (drops : Drops) (stage : Stage tree drops) (ended : drops.step = none) :
    ∃ last, drops = [last] ∧ Progress tree last ∧ last.work.pending = [] := by
  rcases stage_cases tree drops stage with ⟨last, state, progress, idle, _⟩ | ⟨_, step, _⟩
  · exact ⟨last, state, progress, idle⟩
  · rw [step] at ended
    cases ended

theorem stage_step (tree : Tree) (drops next : Drops) (stage : Stage tree drops) (moved : drops.step = some next) :
    Stage tree next := by
  have moves := stage_moves tree drops next stage moved
  cases moves with
  | pop first node pending waits =>
      cases stage with
      | alone _ progress =>
          exact .nested _ _ (start_hollow first node pending) (pop_progress tree node pending first waits progress)
  | clear drop outer place places held =>
      cases stage with
      | alone _ progress =>
          have kept : ∀ place ∈ places, place = .jump := fun place member => progress.hollow place (by simp [held, member])
          exact .alone _ { progress with hollow := kept }
      | nested _ first hollow progress =>
          have kept : ∀ place ∈ places, place = .jump := fun place member => hollow.hollow place (by simp [held, member])
          exact .nested _ first { hollow with hollow := kept } progress
  | leave inner first =>
      cases stage with
      | nested _ _ hollow progress => exact .alone first progress

-- A node that comes off the list pays four: three at most for its own drop, and one more.
def weight : Drops → Nat
  | [] => 0
  | drop :: outer => 4 * countAll drop.work.pending + drop.places.length + 1 + weight outer

theorem count_owners (trees : List Tree) : countAll (trees.filter owns) ≤ countAll trees := by
  induction trees with
  | nil => exact Nat.le_refl 0
  | cons tree trees ih =>
      cases owner : tree.owns with
      | true =>
          rw [List.filter_cons_of_pos owner, countAll, countAll]
          exact Nat.add_le_add_left ih _
      | false =>
          rw [List.filter_cons_of_neg (by simp [owner]), countAll]
          exact Nat.le_trans ih (Nat.le_add_left _ _)

theorem weight_start (tree : Tree) : weight [Drop.start tree] < 4 * tree.count := by
  have fewer := count_owners tree.children
  have places := husk_places tree
  rw [start_spec, count_children]
  simp only [weight]
  omega

theorem weight_step (tree : Tree) (drops next : Drops) (stage : Stage tree drops) (moved : drops.step = some next) :
    weight next < weight drops := by
  have moves := stage_moves tree drops next stage moved
  cases moves with
  | pop first node pending waits =>
      have fewer := count_owners node.children
      have places := husk_places node.husk
      have idle := (start_hollow first node pending).idle
      have held : (Drop.start node.husk).places = node.husk.husk.children := by rw [start_spec]
      simp only [weight, waits, idle, held, Drop.pop, countAll, count_all_append, count_children node]
      omega
  | clear drop outer place places held =>
      simp only [weight, held, List.length_cons]
      omega
  | leave inner first =>
      simp only [weight]
      omega

theorem run_stage (tree : Tree) (steps : Nat) (drops : Drops) (stage : Stage tree drops) : Stage tree (run steps drops) := by
  induction steps generalizing drops with
  | zero => exact stage
  | succ steps ih =>
      rw [run]
      cases moved : drops.step with
      | none => exact stage
      | some next => exact ih next (stage_step tree drops next stage moved)

theorem run_ends (tree : Tree) (steps : Nat) (drops : Drops) (stage : Stage tree drops) (enough : weight drops ≤ steps) :
    step (run steps drops) = none := by
  induction steps generalizing drops with
  | zero =>
      cases stage <;> simp [weight] at enough
  | succ steps ih =>
      rw [run]
      cases moved : drops.step with
      | none => exact moved
      | some next =>
          have lighter := weight_step tree drops next stage moved
          exact ih next (stage_step tree drops next stage moved) (by omega)

theorem run_snoc (steps : Nat) (drops : Drops) :
    run (steps + 1) drops = (run steps drops).step.getD (run steps drops) := by
  induction steps generalizing drops with
  | zero =>
      rw [run, run]
      cases moved : drops.step with
      | none => rfl
      | some next => rfl
  | succ steps ih =>
      rw [run, run]
      cases moved : drops.step with
      | none => simp [moved]
      | some next => exact ih next

-- Some time within so many steps the drop of this node is under way.
def Met (drops : Drops) (steps : Nat) (node : Tree) : Prop :=
  ∃ earlier inner outer, earlier ≤ steps ∧ run earlier drops = [inner, outer] ∧ inner.tree = node.husk

theorem met_later (drops : Drops) (steps : Nat) (node : Tree) (met : Met drops steps node) : Met drops (steps + 1) node := by
  obtain ⟨earlier, inner, outer, before, state, dropped⟩ := met
  exact ⟨earlier, inner, outer, Nat.le_succ_of_le before, state, dropped⟩

theorem popped_new (drops next : Drops) (moves : Moves drops next) (first : Drop) (last : next.getLast? = some first)
    (node : Tree) (member : node ∈ first.work.popped.toList) :
    (∃ older, drops.getLast? = some older ∧ node ∈ older.work.popped.toList) ∨
      ∃ inner outer, next = [inner, outer] ∧ inner.tree = node.husk := by
  cases moves with
  | pop older popped pending waits =>
      rw [List.getLast?_cons_cons, List.getLast?_singleton, Option.some.injEq] at last
      rw [← last] at member
      rcases List.mem_append.mp (Array.toList_push ▸ member) with old | new
      · exact Or.inl ⟨older, rfl, old⟩
      · rw [List.mem_singleton.mp new]
        exact Or.inr ⟨_, _, rfl, by rw [start_spec]⟩
  | clear drop outer place places held =>
      cases outer with
      | nil =>
          rw [List.getLast?_singleton, Option.some.injEq] at last
          rw [← last] at member
          exact Or.inl ⟨drop, rfl, member⟩
      | cons other outer =>
          rw [List.getLast?_cons_cons] at last
          exact Or.inl ⟨first, by rw [List.getLast?_cons_cons, last], member⟩
  | leave inner outer => exact Or.inl ⟨first, last, member⟩

theorem popped_met (tree : Tree) (steps : Nat) (first : Drop) (last : (run steps [Drop.start tree]).getLast? = some first)
    (node : Tree) (member : node ∈ first.work.popped.toList) : Met [Drop.start tree] steps node := by
  induction steps generalizing first with
  | zero =>
      rw [run, List.getLast?_singleton, Option.some.injEq] at last
      rw [← last, start_spec] at member
      simp at member
  | succ steps ih =>
      have stage := run_stage tree steps _ (.alone _ (start_progress tree))
      have state := run_snoc steps [Drop.start tree]
      cases moved : (run steps [Drop.start tree]).step with
      | none =>
          rw [state, moved, Option.getD_none] at last
          exact met_later _ _ _ (ih first last member)
      | some next =>
          rw [moved, Option.getD_some] at state
          rw [state] at last
          have moves := stage_moves tree _ next stage moved
          rcases popped_new _ next moves first last node member with ⟨older, before, old⟩ | ⟨inner, outer, shape, dropped⟩
          · exact met_later _ _ _ (ih older before old)
          · exact ⟨steps + 1, inner, outer, Nat.le_refl _, by rw [state, shape], dropped⟩

end Drops

theorem drop_flat_in_walk_order (tree : Tree) (owner : tree.owns = true) :
    (∀ steps, ∃ first nested, Drops.run steps (Drops.enter [] tree) = nested ++ [first] ∧ first.tree = tree ∧
      nested.length ≤ 1 ∧ ∀ inner ∈ nested,
        (∃ node, first.work.popped.back? = some node ∧ inner.tree = node.husk) ∧
        (∀ place ∈ inner.tree.children, place = .jump) ∧ inner.work.pending = [] ∧ inner.work.popped = #[]) ∧
    ∃ last, Drops.run (4 * tree.count) (Drops.enter [] tree) = [last] ∧ Drops.step [last] = none ∧
      last.work.popped.toList = tree.visited.toList.tail.filter owns ∧
      last.work.discarded.toList.Perm (tree.visited.toList.tail.filter ownsNothing) ∧
      last.work.discarded.toList = (tree :: last.work.popped.toList).flatMap bareChildren ∧
      ∀ node ∈ last.work.popped, ∃ steps inner outer,
        Drops.run steps (Drops.enter [] tree) = [inner, outer] ∧ inner.tree = node.husk := by
  have start := Stage.alone _ (start_progress tree)
  rw [Drops.enter_owner [] tree owner]
  refine ⟨?_, ?_⟩
  · intro steps
    have stage := Drops.run_stage tree steps _ start
    generalize Drops.run steps [Drop.start tree] = drops at stage
    cases stage with
    | alone first progress => exact ⟨first, [], rfl, progress.origin, Nat.zero_le 1, by simp⟩
    | nested inner first hollow progress =>
        obtain ⟨node, last, remains⟩ := hollow.last
        refine ⟨first, [inner], rfl, progress.origin, Nat.le_refl 1, ?_⟩
        intro other member
        rw [List.mem_singleton.mp member]
        refine ⟨⟨node, last, remains⟩, ?_, hollow.idle, hollow.unpopped⟩
        rw [remains]
        exact husk_children node
  · have enough := Nat.le_of_lt (Drops.weight_start tree)
    have ended := Drops.run_ends tree (4 * tree.count) _ start enough
    obtain ⟨last, state, progress, idle⟩ := Drops.stage_ended tree _ (Drops.run_stage tree _ _ start) ended
    have popped := progress.popped
    have others := progress.others
    rw [idle, List.flatMap_nil, List.filter_nil, List.append_nil] at popped others
    have below : tree.visited.toList.tail = tree.children.flatMap preorder := by
      rw [visited_preorder, preorder_children]
      rfl
    rw [below]
    refine ⟨last, state, state ▸ ended, popped, others, progress.discarded, ?_⟩
    intro node member
    obtain ⟨earlier, inner, outer, _, moment, dropped⟩ :=
      Drops.popped_met tree _ last (by rw [state]; rfl) node (Array.mem_def.mp member)
    exact ⟨earlier, inner, outer, moment, dropped⟩

def printing : Tree := .unary .output .empty none (.reference none none)

def choosing : Tree := .flow .branch none (some printing) (some .jump)

def storing : Tree := .assignment none (.literal (.bool true))

theorem drop_flat_in_walk_order_storing :
    (Tree.binary .list .list none choosing storing).owns = true ∧
    ∃ last, Drops.run 28 (Drops.enter [] (.binary .list .list none choosing storing)) = [last] ∧ Drops.step [last] = none ∧
      last.work.popped.toList = [choosing, printing, storing] ∧
      last.work.discarded.toList = [.jump, .reference none none, .literal (.bool true)] := by
  have owner : (Tree.binary .list .list none choosing storing).owns = true := rfl
  obtain ⟨_, last, state, ended, popped, _, discarded, _⟩ := drop_flat_in_walk_order _ owner
  have nodes : last.work.popped.toList = [choosing, printing, storing] := popped
  rw [nodes] at discarded
  exact ⟨owner, last, state, ended, nodes, discarded⟩

end Frontend.Tree
