import Frontend.Proofs.Builder.Shape
import Frontend.Proofs.Outline.Lines

set_option autoImplicit false

namespace Frontend.Outline

def SameOperation (kind : BinaryKind) (op : Label) (kind' : BinaryKind) (op' : Label) : Prop :=
  kind = kind' ∨ (kind = .list ∧ kind' = .op ∧ op'.text = "L") ∨ (kind = .op ∧ op.text = "L" ∧ kind' = .list)

-- Two trees of the same shape. A sequence may stand for an operation with the label of sequences.
mutual

inductive Alike : Tree → Tree → Prop where
  | binary (kind kind' : BinaryKind) (op op' : Label) (type type' : Option ValueType) (left left' right right' : Tree)
      (operation : SameOperation kind op kind' op') (lefts : Alike left left') (rights : Alike right right') :
      Alike (.binary kind op type left right) (.binary kind' op' type' left' right')
  | unary (kind : UnaryKind) (op op' : Label) (type type' : Option ValueType) (operand operand' : Tree)
      (operands : Alike operand operand') : Alike (.unary kind op type operand) (.unary kind op' type' operand')
  | literal (value value' : Literal) (types : value.type = value'.type) : Alike (.literal value) (.literal value')
  | reference (type type' : Option ValueType) (symbol symbol' : Option Handle) :
      Alike (.reference type symbol) (.reference type' symbol')
  | assignment (target target' : Option Handle) (value value' : Tree) (values : Alike value value') :
      Alike (.assignment target value) (.assignment target' value')
  | flow (kind : FlowKind) (condition condition' thenBranch thenBranch' elseBranch elseBranch' : Option Tree)
      (conditions : AlikePart condition condition') (thens : AlikePart thenBranch thenBranch')
      (elses : AlikePart elseBranch elseBranch') :
      Alike (.flow kind condition thenBranch elseBranch) (.flow kind condition' thenBranch' elseBranch')
  | jump : Alike .jump .jump
  | ret : Alike .ret .ret

inductive AlikePart : Option Tree → Option Tree → Prop where
  | absent : AlikePart none none
  | present (tree tree' : Tree) (trees : Alike tree tree') : AlikePart (some tree) (some tree')

end

-- The entries begin with one above the given level, or there are none.
def Below (level : Nat) (entries : List Entry) : Prop := ∀ entry, entries.head? = some entry → entry.level < level

theorem below_mono (level deeper : Nat) (entries : List Entry) (more : level ≤ deeper) (below : Below level entries) :
    Below deeper entries :=
  fun entry first => Nat.lt_of_lt_of_le (below entry first) more

theorem prepend_head (table : SymbolTable) (level : Nat) (tree : Tree) (rest : List Entry) :
    (prepend table level tree rest).head? = some (nodeEntry table level tree) := by
  cases tree with
  | flow kind condition thenBranch elseBranch => cases kind <;> rfl
  | _ => rfl

theorem prepend_below (table : SymbolTable) (level : Nat) (tree : Tree) (rest : List Entry) :
    Below (level + 1) (prepend table level tree rest) := by
  intro entry first
  rw [prepend_head] at first
  rw [← Option.some.inj first]
  exact Nat.lt_succ_self level

theorem lines_head (table : SymbolTable) (level : Nat) (tree : Tree) (rest : List Entry) :
    (lines (prepend table level tree rest)).head? = some (nodeEntry table level tree).line := by
  rw [lines, List.head?_map, prepend_head]
  rfl

theorem missing_apart (table : SymbolTable) (level : Nat) (tree : Tree) (rest rest' : List Entry) :
    lines (⟨level, .missing⟩ :: rest) ≠ lines (prepend table level tree rest') := by
  intro equal
  have heads := congrArg List.head? equal
  rw [lines_head] at heads
  exact node_line_not_missing table tree (congrArg Line.text (Option.some.inj heads)).symm

theorem first_line (table table' : SymbolTable) (level : Nat) (tree tree' : Tree) (rest rest' : List Entry)
    (equal : lines (prepend table level tree rest) = lines (prepend table' level tree' rest')) :
    headOf tree = headOf tree' ∧
      (payload table tree).toList.flatMap Text.printableChar = (payload table' tree').toList.flatMap Text.printableChar := by
  have heads := congrArg List.head? equal
  rw [lines_head, lines_head] at heads
  exact node_line_unique table table' tree tree' (congrArg Line.text (Option.some.inj heads))

-- What may stand behind a branch at the given level: nothing deeper, and not another branch with its caption.
structure Ends (level : Nat) (caption : String) (rest : List Entry) : Prop where
  below : Below (level + 1) rest
  apart : (lines rest).head? ≠ some ⟨level, caption⟩

theorem ends_below (level : Nat) (caption : String) (rest : List Entry) (below : Below level rest) : Ends level caption rest := by
  refine ⟨below_mono level (level + 1) rest (Nat.le_succ level) below, ?_⟩
  cases rest with
  | nil => exact (Option.some_ne_none _).symm
  | cons entry rest =>
      intro same
      have levels : entry.level = level := congrArg Line.level (Option.some.inj same)
      have above := below entry rfl
      omega

theorem branch_below (table : SymbolTable) (level : Nat) (caption : String) (part : Option Tree) (rest : List Entry)
    (below : Below (level + 1) rest) : Below (level + 1) (prependBranch table level caption part rest) := by
  cases part with
  | none => exact below
  | some tree =>
      intro entry first
      rw [← Option.some.inj first]
      exact Nat.lt_succ_self level

theorem ends_branch (table : SymbolTable) (level : Nat) (caption other : String) (part : Option Tree) (rest : List Entry)
    (differs : caption ≠ other) (ends : Ends level other rest) : Ends level other (prependBranch table level caption part rest) := by
  refine ⟨branch_below table level caption part rest ends.below, ?_⟩
  cases part with
  | none => exact ends.apart
  | some tree => exact fun same => differs (congrArg Line.text (Option.some.inj same))

def Ruled (tree : Tree) : Prop := Everywhere (fun tree => RegularFlow tree ∧ SequenceLabelled tree) tree

-- The lines of a tree can be told from those of any other one, whatever follows at its level or above.
def Decided (table table' : SymbolTable) (tree : Tree) : Prop :=
  ∀ (tree' : Tree) (level : Nat) (rest rest' : List Entry), Ruled tree' → Below (level + 1) rest → Below (level + 1) rest' →
    lines (prepend table level tree rest) = lines (prepend table' level tree' rest') →
    Alike tree tree' ∧ lines rest = lines rest'

section Parts

variable (table table' : SymbolTable) (part part' : Option Tree) (level : Nat) (rest rest' : List Entry)
variable (inside : ∀ tree, part = some tree → Decided table table' tree) (ruled : ∀ tree, part' = some tree → Ruled tree)
include inside ruled

theorem part_unique (below : Below (level + 1) rest) (below' : Below (level + 1) rest')
    (equal : lines (prependPart table level part rest) = lines (prependPart table' level part' rest')) :
    AlikePart part part' ∧ lines rest = lines rest' := by
  cases part with
  | none =>
      cases part' with
      | none => exact ⟨.absent, (List.cons.inj equal).2⟩
      | some tree' => exact absurd equal (missing_apart table' level tree' rest rest')
  | some tree =>
      cases part' with
      | none => exact absurd equal.symm (missing_apart table level tree rest' rest)
      | some tree' =>
          obtain ⟨alike, after⟩ := inside tree rfl tree' level rest rest' (ruled tree' rfl) below below' equal
          exact ⟨.present tree tree' alike, after⟩

theorem branch_unique (caption : String) (ends : Ends level caption rest) (ends' : Ends level caption rest')
    (equal : lines (prependBranch table level caption part rest) = lines (prependBranch table' level caption part' rest')) :
    AlikePart part part' ∧ lines rest = lines rest' := by
  cases part with
  | none =>
      cases part' with
      | none => exact ⟨.absent, equal⟩
      | some tree' => exact absurd (congrArg List.head? equal) ends.apart
  | some tree =>
      cases part' with
      | none => exact absurd (congrArg List.head? equal).symm ends'.apart
      | some tree' =>
          have deeper := fun rest below => below_mono (level + 1) (level + 2) rest (Nat.le_succ _) below
          obtain ⟨alike, after⟩ := inside tree rfl tree' (level + 1) rest rest' (ruled tree' rfl)
            (deeper rest ends.below) (deeper rest' ends'.below) (List.cons.inj equal).2
          exact ⟨.present tree tree' alike, after⟩

end Parts

section Flow

variable (table table' : SymbolTable) (condition thenBranch elseBranch condition' thenBranch' elseBranch' : Option Tree)
variable (level : Nat) (rest rest' : List Entry) (below : Below (level + 1) rest) (below' : Below (level + 1) rest')
include below below'

theorem branch_decided (inCondition : ∀ part, condition = some part → Decided table table' part)
    (inThen : ∀ part, thenBranch = some part → Decided table table' part)
    (inElse : ∀ part, elseBranch = some part → Decided table table' part)
    (ruledCondition : ∀ part, condition' = some part → Ruled part) (ruledThen : ∀ part, thenBranch' = some part → Ruled part)
    (ruledElse : ∀ part, elseBranch' = some part → Ruled part)
    (equal : lines (prepend table level (.flow .branch condition thenBranch elseBranch) rest) =
      lines (prepend table' level (.flow .branch condition' thenBranch' elseBranch') rest')) :
    Alike (.flow .branch condition thenBranch elseBranch) (.flow .branch condition' thenBranch' elseBranch') ∧
      lines rest = lines rest' := by
  have ends := ends_below (level + 1) "false-branch" rest below
  have ends' := ends_below (level + 1) "false-branch" rest' below'
  have thenEnds := ends_branch table (level + 1) "false-branch" "true-branch" elseBranch rest (by decide) (ends_below _ _ rest below)
  have thenEnds' := ends_branch table' (level + 1) "false-branch" "true-branch" elseBranch' rest' (by decide) (ends_below _ _ rest' below')
  obtain ⟨conditions, afterCondition⟩ := part_unique table table' condition condition' (level + 1) _ _ inCondition ruledCondition
    (branch_below table (level + 1) "true-branch" thenBranch _ thenEnds.below)
    (branch_below table' (level + 1) "true-branch" thenBranch' _ thenEnds'.below) (List.cons.inj equal).2
  obtain ⟨thens, afterThen⟩ := branch_unique table table' thenBranch thenBranch' (level + 1) _ _ inThen ruledThen
    "true-branch" thenEnds thenEnds' afterCondition
  obtain ⟨elses, after⟩ := branch_unique table table' elseBranch elseBranch' (level + 1) rest rest' inElse ruledElse
    "false-branch" ends ends' afterThen
  exact ⟨.flow .branch _ _ _ _ _ _ conditions thens elses, after⟩

theorem loop_decided (inCondition : ∀ part, condition = some part → Decided table table' part)
    (inBody : ∀ part, thenBranch = some part → Decided table table' part)
    (ruledCondition : ∀ part, condition' = some part → Ruled part) (ruledBody : ∀ part, thenBranch' = some part → Ruled part)
    (equal : lines (prepend table level (.flow .loop condition thenBranch none) rest) =
      lines (prepend table' level (.flow .loop condition' thenBranch' none) rest')) :
    Alike (.flow .loop condition thenBranch none) (.flow .loop condition' thenBranch' none) ∧ lines rest = lines rest' := by
  have ends := ends_below (level + 1) "loop-body" rest below
  have ends' := ends_below (level + 1) "loop-body" rest' below'
  obtain ⟨conditions, afterCondition⟩ := part_unique table table' condition condition' (level + 1) _ _ inCondition ruledCondition
    (branch_below table (level + 1) "loop-body" thenBranch _ ends.below)
    (branch_below table' (level + 1) "loop-body" thenBranch' _ ends'.below) (List.cons.inj equal).2
  obtain ⟨bodies, after⟩ := branch_unique table table' thenBranch thenBranch' (level + 1) rest rest' inBody ruledBody
    "loop-body" ends ends' afterCondition
  exact ⟨.flow .loop _ _ _ _ _ _ conditions bodies .absent, after⟩

theorem function_decided (inBody : ∀ part, thenBranch = some part → Decided table table' part)
    (ruledBody : ∀ part, thenBranch' = some part → Ruled part)
    (equal : lines (prepend table level (.flow .function none thenBranch none) rest) =
      lines (prepend table' level (.flow .function none thenBranch' none) rest')) :
    Alike (.flow .function none thenBranch none) (.flow .function none thenBranch' none) ∧ lines rest = lines rest' := by
  have deeper := fun rest below => below_mono (level + 1) (level + 2) rest (Nat.le_succ _) below
  obtain ⟨bodies, after⟩ := part_unique table table' thenBranch thenBranch' (level + 1) rest rest' inBody ruledBody
    (deeper rest below) (deeper rest' below') (List.cons.inj equal).2
  exact ⟨.flow .function _ _ _ _ _ _ .absent bodies .absent, after⟩

end Flow

theorem label_of_line (op : Label) (shown : op.text.toList.flatMap Text.printableChar = ['L']) : op.text = "L" := by
  have chars := Text.printable_single op.text.toList 'L' (by decide) shown
  exact String.toList_inj.mp chars

theorem same_operation (kind kind' : BinaryKind) (op op' : Label) (labelled : kind = .list → op = .list)
    (labelled' : kind' = .list → op' = .list)
    (labels : op.text.toList.flatMap Text.printableChar = op'.text.toList.flatMap Text.printableChar) :
    SameOperation kind op kind' op' := by
  have shown : Label.list.text.toList.flatMap Text.printableChar = ['L'] := by decide
  cases kind with
  | op =>
      cases kind' with
      | op => exact Or.inl rfl
      | list =>
          rw [labelled' rfl, shown] at labels
          exact Or.inr (Or.inr ⟨rfl, label_of_line op labels, rfl⟩)
  | list =>
      cases kind' with
      | op =>
          rw [labelled rfl, shown] at labels
          exact Or.inr (Or.inl ⟨rfl, rfl, label_of_line op' labels.symm⟩)
      | list => exact Or.inl rfl

-- The first line tells the kind of the other tree. Only a tree of the same kind is left to compare, part by part.
theorem tree_decided (table table' : SymbolTable) (tree : Tree) (here : RegularFlow tree ∧ SequenceLabelled tree)
    (inside : ∀ child ∈ tree.children, Decided table table' child) : Decided table table' tree := by
  intro tree' level rest rest' ruled below below' equal
  obtain ⟨head, labels⟩ := first_line table table' level tree tree' rest rest' equal
  obtain ⟨_, here', inside'⟩ := ruled
  have deep := below_mono (level + 1) (level + 2) rest (Nat.le_succ _) below
  have deep' := below_mono (level + 1) (level + 2) rest' (Nat.le_succ _) below'
  cases tree with
  | binary kind op type left right =>
      cases tree' with
      | binary kind' op' type' left' right' =>
          obtain ⟨lefts, afterLeft⟩ := inside left (by simp [Tree.children]) left' (level + 1) _ _
            (inside' left' (by simp [Tree.children])) (prepend_below table (level + 1) right rest)
            (prepend_below table' (level + 1) right' rest') (List.cons.inj equal).2
          obtain ⟨rights, after⟩ := inside right (by simp [Tree.children]) right' (level + 1) rest rest'
            (inside' right' (by simp [Tree.children])) deep deep' afterLeft
          have operation := same_operation kind kind' op op' (fun same => by subst same; exact here.2)
            (fun same => by subst same; exact here'.2) labels
          exact ⟨.binary _ _ _ _ _ _ _ _ _ _ operation lefts rights, after⟩
      | _ => cases head
  | unary kind op type operand =>
      cases tree' with
      | unary kind' op' type' operand' =>
          obtain ⟨operands, after⟩ := inside operand (by simp [Tree.children]) operand' (level + 1) rest rest'
            (inside' operand' (by simp [Tree.children])) deep deep' (List.cons.inj equal).2
          obtain rfl : kind = kind' := Head.unary.inj head
          exact ⟨.unary kind _ _ _ _ _ _ operands, after⟩
      | _ => cases head
  | literal value =>
      cases tree' with
      | literal value' => exact ⟨.literal value value' (Head.literal.inj head), (List.cons.inj equal).2⟩
      | _ => cases head
  | reference type symbol =>
      cases tree' with
      | reference type' symbol' => exact ⟨.reference type type' symbol symbol', (List.cons.inj equal).2⟩
      | _ => cases head
  | assignment target value =>
      cases tree' with
      | assignment target' value' =>
          obtain ⟨values, after⟩ := inside value (by simp [Tree.children]) value' (level + 1) rest rest'
            (inside' value' (by simp [Tree.children])) deep deep' (List.cons.inj equal).2
          exact ⟨.assignment target target' value value' values, after⟩
      | _ => cases head
  | flow kind condition thenBranch elseBranch =>
      cases tree' with
      | flow kind' condition' thenBranch' elseBranch' =>
          obtain rfl : kind = kind' := Head.flow.inj head
          obtain ⟨inCondition, inThen, inElse⟩ := flow_parts kind condition thenBranch elseBranch _ inside
          obtain ⟨inCondition', inThen', inElse'⟩ := flow_parts kind condition' thenBranch' elseBranch' _ inside'
          cases kind with
          | branch =>
              exact branch_decided table table' _ _ _ _ _ _ level rest rest' below below' inCondition inThen inElse
                inCondition' inThen' inElse' equal
          | loop =>
              obtain ⟨_, rfl⟩ := here.1
              obtain ⟨_, rfl⟩ := here'.1
              exact loop_decided table table' _ _ _ _ level rest rest' below below' inCondition inThen inCondition' inThen' equal
          | function =>
              obtain ⟨rfl, rfl⟩ := here.1
              obtain ⟨rfl, rfl⟩ := here'.1
              exact function_decided table table' _ _ level rest rest' below below' inThen inThen' equal
      | _ => cases head
  | jump =>
      cases tree' with
      | jump => exact ⟨.jump, (List.cons.inj equal).2⟩
      | _ => cases head
  | ret =>
      cases tree' with
      | ret => exact ⟨.ret, (List.cons.inj equal).2⟩
      | _ => cases head

theorem ruled_decided (table table' : SymbolTable) (tree : Tree) (ruled : Ruled tree) : Decided table table' tree := by
  induction ruled with
  | node tree here _ ih => exact tree_decided table table' tree here ih

theorem built_ruled (tree : Tree) (built : Built tree) : Ruled tree :=
  built_everywhere _ (fun table production tree made =>
    ⟨(production_shaped table production tree made).flow, (production_shaped table production tree made).sequence⟩) tree built

theorem render_determines_shape (layout : Layout) (table table' : SymbolTable) (tree tree' : Tree) (built : Built tree)
    (built' : Built tree') (wide : 1 ≤ layout.indentWidth) (ends : layout.newLine = "\n")
    (equal : render layout table tree = render layout table' tree') : Alike tree tree' := by
  have pages : lines (entries table tree) = lines (entries table' tree') :=
    page_unique layout wide ends _ _ (lines_plain table tree) (lines_plain table' tree') (congrArg String.toList equal)
  have below : Below 1 [] := fun entry first => by cases first
  exact (ruled_decided table table' tree (built_ruled tree built) tree' 0 [] [] (built_ruled tree' built') below below pages).1

-- The inner branch is the condition of the outer one: only the levels tell whose the second caption is.
def choice : Tree := .flow .branch (some (.flow .branch (some .ret) (some .jump) none)) none (some .ret)

theorem jump_built : Built .jump := .made {} _ .empty .jump _ (by simp [Production.operands]) rfl

theorem choice_built : Built choice := by
  have ret : Built .ret := .made {} _ .empty .ret _ (by simp [Production.operands]) rfl
  have inner : Built (.flow .branch (some .ret) (some .jump) none) := by
    refine .made {} _ .empty (.branch .ret (some .jump) none) _ ?_ rfl
    simp [Production.operands, ret, jump_built]
  refine .made {} _ .empty (.branch (.flow .branch (some .ret) (some .jump) none) none (some .ret)) _ ?_ rfl
  simp [Production.operands, inner, ret]

theorem render_determines_shape_choice :
    Built (.binary .list .list none choice .jump) ∧ Built (.binary .op ⟨"L", by decide⟩ none choice .jump) ∧
      render ⟨1, "\n"⟩ .empty (.binary .list .list none choice .jump) =
        render ⟨1, "\n"⟩ .empty (.binary .op ⟨"L", by decide⟩ none choice .jump) ∧
      Alike (.binary .list .list none choice .jump) (.binary .op ⟨"L", by decide⟩ none choice .jump) := by
  have sequence : Built (.binary .list .list none choice .jump) := by
    refine .made {} _ .empty (.sequence choice .jump) _ ?_ rfl
    simp [Production.operands, choice_built, jump_built]
  have operation : Built (.binary .op ⟨"L", by decide⟩ none choice .jump) := by
    refine .made {} _ .empty (.binary "L" choice .jump) _ ?_ rfl
    simp [Production.operands, choice_built, jump_built]
  have equal : render ⟨1, "\n"⟩ .empty (.binary .list .list none choice .jump) =
      render ⟨1, "\n"⟩ .empty (.binary .op ⟨"L", by decide⟩ none choice .jump) := rfl
  exact ⟨sequence, operation, equal, render_determines_shape _ _ _ _ _ sequence operation (Nat.le_refl 1) rfl equal⟩

end Frontend.Outline
