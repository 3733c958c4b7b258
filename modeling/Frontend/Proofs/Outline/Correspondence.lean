import Frontend.Proofs.Outline.Lossless
import Frontend.Proofs.Tree.Preorder

set_option autoImplicit false

namespace Frontend.Outline

-- How a node hangs on the one above it: as a plain part, or as a branch that has a caption.
inductive Step where
  | part
  | thenBranch
  | elseBranch
  | loopBody
deriving DecidableEq

def Step.caption? : Step → Option String
  | .part => none
  | .thenBranch => some "true-branch"
  | .elseBranch => some "false-branch"
  | .loopBody => some "loop-body"

def Step.isBranch (step : Step) : Bool := step.caption?.isSome

structure Place where
  route : List Step
  node : Tree

-- The depth of the node, and one more for each branch on the way.
def Place.level (place : Place) : Nat := place.route.length + place.route.countP Step.isBranch

def enter (step : Step) (places : List Place) : List Place :=
  places.map fun place => { place with route := step :: place.route }

def thenStep : FlowKind → Step
  | .branch => .thenBranch
  | .loop => .loopBody
  | .function => .part

def elseStep : FlowKind → Step
  | .branch => .elseBranch
  | .loop => .elseBranch
  | .function => .part

mutual

def places : Tree → List Place
  | .binary kind op type left right =>
    ⟨[], .binary kind op type left right⟩ :: (enter .part (places left) ++ enter .part (places right))
  | .unary kind op type operand => ⟨[], .unary kind op type operand⟩ :: enter .part (places operand)
  | .literal value => [⟨[], .literal value⟩]
  | .reference type symbol => [⟨[], .reference type symbol⟩]
  | .assignment target value => ⟨[], .assignment target value⟩ :: enter .part (places value)
  | .flow kind condition thenBranch elseBranch =>
    ⟨[], .flow kind condition thenBranch elseBranch⟩
      :: (partPlaces .part condition ++ partPlaces (thenStep kind) thenBranch ++ partPlaces (elseStep kind) elseBranch)
  | .jump => [⟨[], .jump⟩]
  | .ret => [⟨[], .ret⟩]

def partPlaces (step : Step) : Option Tree → List Place
  | none => []
  | some tree => enter step (places tree)

end

def branches : Tree → List Tree
  | .flow .branch _ thenBranch elseBranch => thenBranch.toList ++ elseBranch.toList
  | .flow .loop _ thenBranch elseBranch => thenBranch.toList ++ elseBranch.toList
  | _ => []

def lacksBody : Tree → Bool
  | .flow .function _ none _ => true
  | _ => false

-- The children of a node, each with the step that leads to it.
def steps : Tree → List (Step × Tree)
  | .binary _ _ _ left right => [(.part, left), (.part, right)]
  | .unary _ _ _ operand => [(.part, operand)]
  | .assignment _ value => [(.part, value)]
  | .flow kind condition thenBranch elseBranch =>
    condition.toList.map (Prod.mk .part) ++ thenBranch.toList.map (Prod.mk (thenStep kind))
      ++ elseBranch.toList.map (Prod.mk (elseStep kind))
  | _ => []

theorem steps_children (tree : Tree) : (steps tree).map Prod.snd = tree.children := by
  cases tree with
  | flow kind condition thenBranch elseBranch => simp [steps, Tree.children, Function.comp_def]
  | _ => rfl

theorem steps_branches (tree : Tree) : (steps tree).countP (fun step => step.1.isBranch) = (branches tree).length := by
  cases tree with
  | flow kind condition thenBranch elseBranch =>
      cases kind <;> cases condition <;> cases thenBranch <;> cases elseBranch <;> rfl
  | _ => rfl

theorem part_places (step : Step) (part : Option Tree) :
    partPlaces step part = (part.toList.map (Prod.mk step)).flatMap fun entry => enter entry.1 (places entry.2) := by
  cases part with
  | none => rfl
  | some tree => simp [partPlaces]

theorem places_steps (tree : Tree) :
    places tree = ⟨[], tree⟩ :: (steps tree).flatMap fun entry => enter entry.1 (places entry.2) := by
  cases tree with
  | flow kind condition thenBranch elseBranch => simp [places, steps, part_places]
  | _ => simp [places, steps]

theorem enter_nodes (step : Step) (below : List Place) : (enter step below).map Place.node = below.map Place.node := by
  simp [enter]

theorem places_nodes (tree : Tree) : (places tree).map Place.node = tree.preorder := by
  induction tree using Tree.child_induct with
  | node tree ih =>
      rw [places_steps, Tree.preorder_children, List.map_cons, List.map_flatMap, ← steps_children, List.flatMap_map]
      refine congrArg (List.cons tree) (List.flatMap_congr fun entry member => ?_)
      rw [enter_nodes]
      apply ih
      rw [← steps_children]
      exact List.mem_map_of_mem member

def prependStep (table : SymbolTable) (level : Nat) (entry : Step × Tree) (rest : List Entry) : List Entry :=
  match entry.1.caption? with
  | none => prepend table (level + 1) entry.2 rest
  | some caption => ⟨level + 1, .caption caption⟩ :: prepend table (level + 2) entry.2 rest

def absence (level : Nat) (tree : Tree) : List Entry :=
  if lacksBody tree then [⟨level + 1, .missing⟩] else []

-- All shapes at once: the line of the node, and then its children in turn.
theorem prepend_steps (table : SymbolTable) (level : Nat) (tree : Tree) (regular : RegularFlow tree) (rest : List Entry) :
    prepend table level tree rest =
      nodeEntry table level tree :: (absence level tree ++ (steps tree).foldr (prependStep table level) rest) := by
  cases tree with
  | flow kind condition thenBranch elseBranch =>
      cases kind with
      | branch =>
          obtain ⟨tree, rfl⟩ := Option.isSome_iff_exists.mp regular
          cases thenBranch <;> cases elseBranch <;> rfl
      | loop =>
          obtain ⟨tree, rfl⟩ := Option.isSome_iff_exists.mp regular.1
          obtain ⟨_, rfl⟩ := regular
          cases thenBranch <;> rfl
      | function =>
          obtain ⟨rfl, rfl⟩ := regular
          cases thenBranch <;> rfl
  | _ => rfl

def Entry.isNode (entry : Entry) : Bool :=
  match entry.content with
  | .node _ => true
  | _ => false

def nodeAt (table : SymbolTable) (level : Nat) (place : Place) : Entry := nodeEntry table (level + place.level) place.node

def otherLines (entries : List Entry) : Nat := entries.countP fun entry => !entry.isNode

theorem other_lines_cons (entry : Entry) (rest : List Entry) :
    otherLines (entry :: rest) = otherLines rest + (!entry.isNode).toNat := by
  rw [otherLines, otherLines, List.countP_cons]
  cases entry.isNode <;> rfl

-- How many captions and missing bodies there are at these nodes.
def besides (nodes : List Tree) : Nat := (nodes.flatMap branches).length + nodes.countP lacksBody

theorem besides_append (front back : List Tree) : besides (front ++ back) = besides front + besides back := by
  simp only [besides, List.flatMap_append, List.length_append, List.countP_append]
  omega

theorem besides_cons (node : Tree) (nodes : List Tree) :
    besides (node :: nodes) = (branches node).length + (lacksBody node).toNat + besides nodes := by
  simp only [besides, List.flatMap_cons, List.length_append, List.countP_cons]
  cases lacksBody node <;> simp <;> omega

structure Listed (table : SymbolTable) (tree : Tree) : Prop where
  nodes : ∀ level rest, (prepend table level tree rest).filter Entry.isNode =
    (places tree).map (nodeAt table level) ++ rest.filter Entry.isNode
  others : ∀ level rest, otherLines (prepend table level tree rest) = besides tree.preorder + otherLines rest

theorem enter_level (table : SymbolTable) (level : Nat) (step : Step) (below : List Place) :
    (enter step below).map (nodeAt table level) = below.map (nodeAt table (level + 1 + step.isBranch.toNat)) := by
  rw [enter, List.map_map]
  apply List.map_congr_left
  intro place _
  have deeper : (Place.mk (step :: place.route) place.node).level = 1 + step.isBranch.toNat + place.level := by
    simp only [Place.level, List.length_cons, List.countP_cons]
    cases step.isBranch <;> simp <;> omega
  rw [Function.comp_apply, nodeAt, nodeAt, deeper]
  simp only [Nat.add_assoc]

section Forest

variable (table : SymbolTable) (level : Nat)

theorem step_listed (entry : Step × Tree) (listed : Listed table entry.2) (rest : List Entry) :
    (prependStep table level entry rest).filter Entry.isNode =
      (enter entry.1 (places entry.2)).map (nodeAt table level) ++ rest.filter Entry.isNode ∧
    otherLines (prependStep table level entry rest) = entry.1.isBranch.toNat + besides entry.2.preorder + otherLines rest := by
  rw [enter_level, prependStep, Step.isBranch]
  cases entry.1.caption? with
  | none => exact ⟨listed.nodes (level + 1) rest, by simp [listed.others]⟩
  | some caption =>
      refine ⟨listed.nodes (level + 2) rest, ?_⟩
      rw [other_lines_cons, listed.others]
      simp only [Entry.isNode, Option.isSome_some, Bool.not_false, Bool.toNat_true]
      omega

theorem forest_listed (entries : List (Step × Tree)) (each : ∀ entry ∈ entries, Listed table entry.2) (rest : List Entry) :
    (entries.foldr (prependStep table level) rest).filter Entry.isNode =
      (entries.flatMap fun entry => enter entry.1 (places entry.2)).map (nodeAt table level) ++ rest.filter Entry.isNode ∧
    otherLines (entries.foldr (prependStep table level) rest) =
      entries.countP (fun entry => entry.1.isBranch) + besides ((entries.map Prod.snd).flatMap Tree.preorder) + otherLines rest := by
  induction entries with
  | nil => simp [besides]
  | cons entry entries ih =>
      obtain ⟨first, others⟩ := List.forall_mem_cons.mp each
      obtain ⟨nodes, counted⟩ := step_listed table level entry first (entries.foldr (prependStep table level) rest)
      obtain ⟨nodesBehind, countedBehind⟩ := ih others
      rw [List.foldr_cons]
      refine ⟨?_, ?_⟩
      · rw [nodes, nodesBehind, List.flatMap_cons, List.map_append, List.append_assoc]
      · rw [counted, countedBehind, List.countP_cons, List.map_cons, List.flatMap_cons, besides_append]
        cases entry.1.isBranch <;> simp <;> omega

theorem absence_listed (tree : Tree) (rest : List Entry) :
    (absence level tree ++ rest).filter Entry.isNode = rest.filter Entry.isNode ∧
      otherLines (absence level tree ++ rest) = (lacksBody tree).toNat + otherLines rest := by
  rw [absence]
  cases lacksBody tree with
  | false => simp
  | true => exact ⟨rfl, (other_lines_cons _ rest).trans (Nat.add_comm _ _)⟩

end Forest

theorem tree_listed (table : SymbolTable) (tree : Tree) (regular : Regular tree) : Listed table tree := by
  induction regular with
  | node tree here _ ih =>
      have each : ∀ entry ∈ steps tree, Listed table entry.2 := by
        intro entry member
        apply ih
        rw [← steps_children]
        exact List.mem_map_of_mem member
      refine ⟨fun level rest => ?_, fun level rest => ?_⟩
      · obtain ⟨nodes, _⟩ := forest_listed table level (steps tree) each rest
        rw [prepend_steps table level tree here, List.filter_cons_of_pos rfl, (absence_listed level tree _).1, nodes,
          places_steps tree]
        rfl
      · obtain ⟨_, counted⟩ := forest_listed table level (steps tree) each rest
        rw [prepend_steps table level tree here, other_lines_cons, (absence_listed level tree _).2, counted, steps_children,
          steps_branches, Tree.preorder_children tree, besides_cons]
        simp only [nodeEntry, Entry.isNode, Bool.not_true, Bool.toNat_false]
        omega

theorem entries_listed (table : SymbolTable) (tree : Tree) (regular : Regular tree) :
    (entries table tree).filter Entry.isNode = (places tree).map (nodeAt table 0) ∧
      (entries table tree).length = tree.count + besides tree.preorder := by
  have listed := tree_listed table tree regular
  have nodes := listed.nodes 0 []
  have others := listed.others 0 []
  rw [List.filter_nil, List.append_nil] at nodes
  refine ⟨nodes, ?_⟩
  have nodeCount : (entries table tree).countP Entry.isNode = tree.count := by
    rw [List.countP_eq_length_filter, entries, nodes, List.length_map, Tree.count_preorder, ← places_nodes, List.length_map]
  have otherCount : (entries table tree).countP (fun entry => !entry.isNode) = besides tree.preorder := others
  rw [List.length_eq_countP_add_countP Entry.isNode, nodeCount, ← otherCount]
  simp

-- A line is none of a node if only a caption, or the word for a missing tree, stands behind the indent.
def isNodeLine (line : List Char) : Bool :=
  !(("NULL" :: captions).map String.toList).contains (line.dropWhile (· == ' '))

theorem indent_dropped (count : Nat) (text : List Char) (start : text.head? ≠ some ' ') :
    (List.replicate count ' ' ++ text).dropWhile (· == ' ') = text := by
  induction count with
  | zero =>
      cases text with
      | nil => rfl
      | cons c rest =>
          have other : (c == ' ') = false := beq_eq_false_iff_ne.mpr fun same => start (congrArg some same)
          rw [List.replicate_zero, List.nil_append, List.dropWhile_cons, other]
          rfl
  | succ count ih => exact ih

theorem indent_taken (count : Nat) (text : List Char) (start : text.head? ≠ some ' ') :
    (List.replicate count ' ' ++ text).takeWhile (· == ' ') = List.replicate count ' ' := by
  have split : (List.replicate count ' ' ++ text).takeWhile (· == ' ') ++ (List.replicate count ' ' ++ text).dropWhile (· == ' ') =
      List.replicate count ' ' ++ text := List.takeWhile_append_dropWhile
  rw [indent_dropped count text start] at split
  exact List.append_cancel_right split

theorem head_apart (head : Head) (rest : List Char) :
    (("NULL" :: captions).map String.toList).contains (head.text.toList ++ rest) = false := by
  rw [List.contains_eq_any_beq, List.any_eq_false]
  intro text member same
  obtain ⟨plain, known, rfl⟩ := List.mem_map.mp member
  apply head_not_beside head plain known
  rw [← eq_of_beq same]
  exact List.prefix_append _ _

theorem node_lines_cover (table : SymbolTable) (layout : Layout) :
    Covers table fun entry => isNodeLine (entry.line.shown layout) = entry.isNode := by
  have beside : ∀ text ∈ "NULL" :: captions, text.toList.head? ≠ some ' ' ∧
      (("NULL" :: captions).map String.toList).contains text.toList = true := by decide
  have besideLine : ∀ count, ∀ text ∈ "NULL" :: captions, isNodeLine (List.replicate count ' ' ++ text.toList) = false := by
    intro count text known
    rw [isNodeLine, indent_dropped count text.toList (beside text known).1, (beside text known).2]
    rfl
  refine ⟨?_, ?_, ?_⟩
  · intro level tree
    change isNodeLine (List.replicate _ ' ' ++ (Content.node (nodeText table tree)).text.toList) = true
    rw [isNodeLine, node_line, indent_dropped _ _ (head_start _ _), head_apart]
    rfl
  · intro level text known
    exact besideLine _ text (List.mem_cons_of_mem _ known)
  · intro level
    exact besideLine _ "NULL" List.mem_cons_self

theorem quiet_covers (table : SymbolTable) :
    Covers table fun entry => ∀ c ∈ entry.content.text.toList, Text.isControl c = false := by
  have fixed : ∀ text ∈ "NULL" :: captions, text.toList.any Text.isControl = false := by decide
  have quiet : ∀ text ∈ "NULL" :: captions, ∀ c ∈ text.toList, Text.isControl c = false := by
    intro text known c member
    exact Bool.eq_false_iff.mpr (List.any_eq_false.mp (fixed text known) c member)
  refine ⟨?_, ?_, ?_⟩
  · intro level tree
    exact Text.printable_quiet (nodeText table tree)
  · intro level text known
    exact quiet text (List.mem_cons_of_mem _ known)
  · intro level
    exact quiet "NULL" List.mem_cons_self

theorem line_quiet (layout : Layout) (entry : Entry) (quiet : ∀ c ∈ entry.content.text.toList, Text.isControl c = false) :
    ∀ c ∈ entry.line.shown layout, Text.isControl c = false := by
  intro c member
  rcases List.mem_append.mp member with indent | text
  · rw [List.eq_of_mem_replicate indent]
    decide
  · exact quiet c text

-- The line of a node: the indent, what is shown of its kind, and the payload with its escapes.
def nodeLine (layout : Layout) (table : SymbolTable) (place : Place) : List Char :=
  List.replicate (layout.indentWidth * place.level) ' '
    ++ ((headOf place.node).text.toList ++ (payload table place.node).toList.flatMap Text.printableChar)

theorem node_at_line (layout : Layout) (table : SymbolTable) (place : Place) :
    (nodeAt table 0 place).line.shown layout = nodeLine layout table place := by
  change List.replicate ((0 + place.level) * layout.indentWidth) ' ' ++ (Content.node (nodeText table place.node)).text.toList = _
  rw [node_line, Nat.zero_add, Nat.mul_comm]
  rfl

theorem render_one_line_per_node (layout : Layout) (table : SymbolTable) (tree : Tree) (built : Built tree)
    (ends : layout.newLine = "\n") :
    ∃ lines : List (List Char),
      (render layout table tree).toList.splitOn '\n' = lines ++ [[]] ∧
      lines.length =
        tree.count + ((tree.visited.toList.flatMap branches).length + tree.visited.toList.countP lacksBody) ∧
      lines.filter isNodeLine = (places tree).map (nodeLine layout table) ∧
      (places tree).map Place.node = tree.visited.toList ∧
      (∀ place ∈ places tree, (nodeLine layout table place).takeWhile (· == ' ') =
        List.replicate (layout.indentWidth * place.level) ' ') ∧
      ∀ line ∈ lines, ∀ c ∈ line, Text.isControl c = false := by
  obtain ⟨nodes, counted⟩ := entries_listed table tree (built_regular tree built)
  have all := fun rule covers => prepend_all table rule covers tree 0 [] (by simp)
  have plain := all _ (node_lines_cover table layout)
  have quiet := all _ (quiet_covers table)
  refine ⟨(lines (entries table tree)).map (Line.shown layout), ?_, ?_, ?_, ?_, ?_, ?_⟩
  · exact page_lines layout ends _ fun line member => (lines_plain table tree line member).1
  · rw [List.length_map, lines, List.length_map, counted, Tree.visited_preorder]
    rfl
  · have same := List.filter_congr plain
    rw [lines, List.map_map, List.filter_map]
    change ((entries table tree).filter fun entry => isNodeLine (entry.line.shown layout)).map _ = _
    rw [entries, same, ← entries, nodes, List.map_map]
    exact List.map_congr_left fun place _ => node_at_line layout table place
  · rw [places_nodes, Tree.visited_preorder]
  · intro place _
    exact indent_taken _ _ (head_start _ _)
  · intro line member
    rw [lines, List.map_map] at member
    obtain ⟨entry, inside, rfl⟩ := List.mem_map.mp member
    exact line_quiet layout entry (quiet entry inside)

-- A loop over a line feed, and a function that has no body.
def bare : Tree :=
  .binary .list .list none (.flow .loop (some (.literal (.char '\n'))) (some .jump) none) (.flow .function none none none)

theorem bare_built : Built bare := by
  have feed : Built (.literal (.char '\n')) := .made {} _ .empty (.literal (.char '\n')) _ (by simp [Production.operands]) rfl
  have loop : Built (.flow .loop (some (.literal (.char '\n'))) (some .jump) none) := by
    refine .made {} _ .empty (.loop (.literal (.char '\n')) (some .jump)) _ ?_ rfl
    simp [Production.operands, feed, jump_built]
  have function : Built (.flow .function none none none) := .made {} _ .empty (.function none) _ (by simp [Production.operands]) rfl
  refine .made {} _ .empty (.sequence (.flow .loop (some (.literal (.char '\n'))) (some .jump) none) (.flow .function none none none))
    _ ?_ rfl
  simp [Production.operands, loop, function]

theorem render_one_line_per_node_bare :
    Built bare ∧ bare.count = 5 ∧
      ∃ lines : List (List Char),
        (render ⟨1, "\n"⟩ .empty bare).toList.splitOn '\n' = lines ++ [[]] ∧ lines.length = 7 ∧
        (places bare).map Place.level = [0, 1, 2, 3, 1] ∧
        lines.filter isNodeLine =
          ["binop L", " flow - while", "  cnumber \\n", "   goto", " flow - func"].map String.toList ∧
        ∀ line ∈ lines, ∀ c ∈ line, Text.isControl c = false := by
  have size : bare.count = 5 := rfl
  have besides : ((bare.visited.toList.flatMap branches).length + bare.visited.toList.countP lacksBody) = 2 := rfl
  obtain ⟨lines, split, counted, nodes, _, _, quiet⟩ := render_one_line_per_node ⟨1, "\n"⟩ .empty bare bare_built rfl
  rw [size, besides] at counted
  exact ⟨bare_built, size, lines, split, counted, rfl, nodes.trans (by decide), quiet⟩

end Frontend.Outline
