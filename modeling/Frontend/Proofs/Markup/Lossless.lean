import Frontend.Proofs.Builder.Shape
import Frontend.Proofs.Markup.Marks
import Frontend.Proofs.Tree.Preorder

set_option autoImplicit false

namespace Frontend.Markup

-- What markup shows of a tree: all kinds and parts, and the texts with their escapes.
inductive Skeleton where
  | operation (operator : String) (left right : Skeleton)
  | sequence (left right : Skeleton)
  | unary (operator : String) (operand : Skeleton)
  | input (operand : Skeleton)
  | output (operand : Skeleton)
  | literal (tag text : String)
  | reference (name : String)
  | assignment (name : String) (value : Skeleton)
  | flow (kind : FlowKind) (condition thenBranch elseBranch : Option Skeleton)
  | jump
  | ret

mutual

def skeleton (table : SymbolTable) : Tree → Skeleton
  | .binary .op op _ left right => .operation (escape op.text) (skeleton table left) (skeleton table right)
  | .binary .list _ _ left right => .sequence (skeleton table left) (skeleton table right)
  | .unary .op op _ operand => .unary (escape op.text) (skeleton table operand)
  | .unary .input _ _ operand => .input (skeleton table operand)
  | .unary .output _ _ operand => .output (skeleton table operand)
  | .literal value => .literal (literalName value) (escape value.text)
  | .reference _ symbol => .reference (escape (table.shownName symbol))
  | .assignment target value => .assignment (escape (table.shownName target)) (skeleton table value)
  | .flow kind condition thenBranch elseBranch =>
      .flow kind (skeletonPart table condition) (skeletonPart table thenBranch) (skeletonPart table elseBranch)
  | .jump => .jump
  | .ret => .ret

def skeletonPart (table : SymbolTable) : Option Tree → Option Skeleton
  | none => none
  | some tree => some (skeleton table tree)

end

def nodeKinds : List (String × Tree.Kind) :=
  [("binary_op", .binaryOp), ("stmt_list", .list), ("UNOP", .unaryOp), ("INPUT", .input), ("OUTPUT", .output), ("IF", .branch),
    ("LOOP", .loop), ("FUNC", .function)]

abbrev Reader := StateT (List Mark) Option

def next : Reader Mark
  | [] => none
  | mark :: marks => some (mark, marks)

def readText : Reader String
  | .value _ text :: marks => some (text, marks)
  | _ => none

def readClosing : Reader Unit
  | .closing :: marks => some ((), marks)
  | _ => none

def readSection (tag : String) (inner : Reader Skeleton) : Reader (Option Skeleton) := do
  if (← get).head? = some (.opening tag) then
    let _ ← next
    let part ← inner
    readClosing
    return some part
  else return none

def readBody (inner : Reader Skeleton) : Reader (Option Skeleton) := do
  if (← get).head? = some .closing then return none
  else return some (← inner)

def readNode (inner : Reader Skeleton) : Tree.Kind → Reader Skeleton
  | .binaryOp => return .operation (← readText) (← inner) (← inner)
  | .list => return .sequence (← inner) (← inner)
  | .unaryOp => return .unary (← readText) (← inner)
  | .input => return .input (← inner)
  | .output => return .output (← inner)
  | .branch =>
    return .flow .branch (← readSection "CONDITION" inner) (← readSection "IF_TRUE" inner) (← readSection "IF_FALSE" inner)
  | .loop => return .flow .loop (← readSection "CONDITION" inner) (← readSection "LOOP_BODY" inner) none
  | .function => return .flow .function none (← readBody inner) none
  | _ => failure

-- An operator stands only behind the opening mark of its node, so that elsewhere its name starts an assignment.
def readValue (inner : Reader Skeleton) (name text : String) : Reader Skeleton :=
  if name = "OP" then return .assignment (← readText) (← inner)
  else if name = "VARIABLE" then return .reference text
  else if name = "JUMP" then return .jump
  else return .literal name text

def readTree (inner : Reader Skeleton) : Reader Skeleton := do
  match ← next with
  | .opening tag =>
    match nodeKinds.lookup tag with
    | none => failure
    | some kind =>
      let result ← readNode inner kind
      readClosing
      return result
  | .closing => failure
  | .value name text => readValue inner name text
  | .returned => return .ret

def read : Nat → Reader Skeleton
  | 0 => failure
  | depth + 1 => readTree (read depth)

@[simp] theorem next_cons (mark : Mark) (marks : List Mark) : next.run (mark :: marks) = some (mark, marks) := rfl

@[simp] theorem read_text_cons (name text : String) (marks : List Mark) :
    readText.run (.value name text :: marks) = some (text, marks) := rfl

@[simp] theorem read_closing_cons (marks : List Mark) : readClosing.run (.closing :: marks) = some ((), marks) := rfl

@[simp] theorem seen_cons (element : Element) (rest : List Element) : seen (element :: rest) = element.mark.shown :: seen rest := rfl

def Reads (inner : Reader Skeleton) (table : SymbolTable) (tree : Tree) : Prop :=
  ∀ level rest, inner.run (seen (prepend table level tree rest)) = some (skeleton table tree, seen rest)

theorem section_head (table : SymbolTable) (level : Nat) (tag other : String) (part : Option Tree) (rest : List Element)
    (differs : tag ≠ other) (behind : (seen rest).head? ≠ some (.opening other)) :
    (seen (prependSection table level tag part rest)).head? ≠ some (.opening other) := by
  cases part with
  | none => exact behind
  | some tree => simpa [prependSection, Mark.shown] using differs

theorem tree_head (table : SymbolTable) (level : Nat) (tree : Tree) (rest : List Element) :
    (seen (prepend table level tree rest)).head? ≠ some .closing := by
  cases tree with
  | binary kind op type left right => cases kind <;> simp [prepend, Mark.shown]
  | unary kind op type operand => cases kind <;> simp [prepend, Mark.shown]
  | flow kind condition thenBranch elseBranch => cases kind <;> simp [prepend, Mark.shown]
  | _ => simp [prepend, Mark.shown]

section Parts

variable (inner : Reader Skeleton) (table : SymbolTable) (part : Option Tree) (level : Nat) (rest : List Element)
variable (inside : ∀ tree, part = some tree → Reads inner table tree)
include inside

theorem section_reads (tag : String) (behind : (seen rest).head? ≠ some (.opening tag)) :
    (readSection tag inner).run (seen (prependSection table level tag part rest)) = some (skeletonPart table part, seen rest) := by
  cases part with
  | none => simp [readSection, prependSection, skeletonPart, behind]
  | some tree =>
      have reads := inside tree rfl (level + 1) (⟨level, .closing⟩ :: rest)
      simp [readSection, prependSection, skeletonPart, Mark.shown, reads]

theorem body_reads (behind : (seen rest).head? = some .closing) :
    (readBody inner).run (seen (prependBody table level part rest)) = some (skeletonPart table part, seen rest) := by
  cases part with
  | none => simp [readBody, prependBody, skeletonPart, behind]
  | some tree =>
      have reads := inside tree rfl level rest
      simp [readBody, prependBody, skeletonPart, tree_head, reads]

end Parts

theorem literal_reads (inner : Reader Skeleton) (value : Literal) (text : String) (marks : List Mark) :
    (readValue inner (literalName value) text).run marks = some (.literal (literalName value) text, marks) := by
  cases value <;> simp [readValue, literalName]

theorem closing_head (level : Nat) (rest : List Element) (tag : String) :
    (seen (⟨level, .closing⟩ :: rest)).head? ≠ some (.opening tag) := by
  simp [Mark.shown]

section Flow

variable (inner : Reader Skeleton) (table : SymbolTable) (condition thenBranch elseBranch : Option Tree)

-- Read from the last section to the first: where one is absent, the mark that stands there must not open it.
theorem branch_reads (inCondition : ∀ part, condition = some part → Reads inner table part)
    (inThen : ∀ part, thenBranch = some part → Reads inner table part)
    (inElse : ∀ part, elseBranch = some part → Reads inner table part) :
    Reads (readTree inner) table (.flow .branch condition thenBranch elseBranch) := by
  intro level rest
  have known : nodeKinds.lookup "IF" = some .branch := by decide
  have closed := closing_head level rest
  have readsElse := section_reads inner table elseBranch (level + 1) _ inElse "IF_FALSE" (closed _)
  have noThen := section_head table (level + 1) "IF_FALSE" "IF_TRUE" elseBranch _ (by decide) (closed _)
  have readsThen := section_reads inner table thenBranch (level + 1) _ inThen "IF_TRUE" noThen
  have noCondition := section_head table (level + 1) "IF_TRUE" "CONDITION" thenBranch _ (by decide)
    (section_head table (level + 1) "IF_FALSE" "CONDITION" elseBranch _ (by decide) (closed _))
  have readsCondition := section_reads inner table condition (level + 1) _ inCondition "CONDITION" noCondition
  simp only [seen_cons, Mark.shown] at readsElse
  simp [prepend, readTree, readNode, skeleton, Mark.shown, known, readsCondition, readsThen, readsElse]

theorem loop_reads (inCondition : ∀ part, condition = some part → Reads inner table part)
    (inBody : ∀ part, thenBranch = some part → Reads inner table part) :
    Reads (readTree inner) table (.flow .loop condition thenBranch none) := by
  intro level rest
  have known : nodeKinds.lookup "LOOP" = some .loop := by decide
  have closed := closing_head level rest
  have readsBody := section_reads inner table thenBranch (level + 1) _ inBody "LOOP_BODY" (closed _)
  have noCondition := section_head table (level + 1) "LOOP_BODY" "CONDITION" thenBranch _ (by decide) (closed _)
  have readsCondition := section_reads inner table condition (level + 1) _ inCondition "CONDITION" noCondition
  simp only [seen_cons, Mark.shown] at readsBody
  simp [prepend, readTree, readNode, skeleton, skeletonPart, Mark.shown, known, readsCondition, readsBody]

theorem function_reads (inBody : ∀ part, thenBranch = some part → Reads inner table part) :
    Reads (readTree inner) table (.flow .function none thenBranch none) := by
  intro level rest
  have known : nodeKinds.lookup "FUNC" = some .function := by decide
  have readsBody := body_reads inner table thenBranch (level + 1) (⟨level, .closing⟩ :: rest) inBody rfl
  simp only [seen_cons, Mark.shown] at readsBody
  simp [prepend, readTree, readNode, skeleton, skeletonPart, Mark.shown, known, readsBody]

end Flow

-- One step of reading gets a tree right if the reader for the parts does.
theorem tree_reads (inner : Reader Skeleton) (table : SymbolTable) (tree : Tree) (regular : RegularFlow tree)
    (below : ∀ child ∈ tree.children, Reads inner table child) : Reads (readTree inner) table tree := by
  intro level rest
  cases tree with
  | binary kind op type left right =>
      have readsLeft := below left (by simp [Tree.children]) (level + 1)
      have readsRight := below right (by simp [Tree.children]) (level + 1) (⟨level, .closing⟩ :: rest)
      cases kind with
      | op =>
          have known : nodeKinds.lookup "binary_op" = some .binaryOp := by decide
          simp [prepend, readTree, readNode, skeleton, Mark.shown, known, readsLeft, readsRight]
      | list =>
          have known : nodeKinds.lookup "stmt_list" = some .list := by decide
          simp [prepend, readTree, readNode, skeleton, Mark.shown, known, readsLeft, readsRight]
  | unary kind op type operand =>
      have reads := below operand (by simp [Tree.children]) (level + 1) (⟨level, .closing⟩ :: rest)
      cases kind with
      | op =>
          have known : nodeKinds.lookup "UNOP" = some .unaryOp := by decide
          simp [prepend, readTree, readNode, skeleton, Mark.shown, known, reads]
      | input =>
          have known : nodeKinds.lookup "INPUT" = some .input := by decide
          simp [prepend, readTree, readNode, skeleton, Mark.shown, known, reads]
      | output =>
          have known : nodeKinds.lookup "OUTPUT" = some .output := by decide
          simp [prepend, readTree, readNode, skeleton, Mark.shown, known, reads]
  | literal value => simp [prepend, readTree, skeleton, Mark.shown, literal_reads]
  | reference type symbol => simp [prepend, readTree, readValue, skeleton, Mark.shown]
  | assignment target value =>
      have reads := below value (by simp [Tree.children]) level rest
      simp [prepend, readTree, readValue, skeleton, Mark.shown, reads]
  | flow kind condition thenBranch elseBranch =>
      obtain ⟨inCondition, inThen, inElse⟩ := flow_parts kind condition thenBranch elseBranch _ below
      cases kind with
      | branch => exact branch_reads inner table condition thenBranch elseBranch inCondition inThen inElse level rest
      | loop =>
          obtain ⟨_, rfl⟩ := regular
          exact loop_reads inner table condition thenBranch inCondition inThen level rest
      | function =>
          obtain ⟨rfl, rfl⟩ := regular
          exact function_reads inner table thenBranch inThen level rest
  | jump => simp [prepend, readTree, readValue, skeleton, Mark.shown]
  | ret => simp [prepend, readTree, skeleton, Mark.shown]

theorem read_reads (table : SymbolTable) (depth : Nat) (tree : Tree) (regular : Regular tree) (fits : sizeOf tree ≤ depth) :
    Reads (read depth) table tree := by
  induction depth generalizing tree with
  | zero => cases tree <;> simp at fits
  | succ depth ih =>
      obtain ⟨_, here, below⟩ := regular
      refine tree_reads (read depth) table tree here fun child member => ih child (below child member) ?_
      have smaller := Tree.child_smaller tree child member
      omega

theorem skeleton_of_seen (table table' : SymbolTable) (tree tree' : Tree) (regular : Regular tree) (regular' : Regular tree')
    (equal : seen (elements table tree) = seen (elements table' tree')) : skeleton table tree = skeleton table' tree' := by
  have first := read_reads table (sizeOf tree + sizeOf tree') tree regular (Nat.le_add_right _ _) 0 []
  have second := read_reads table' (sizeOf tree + sizeOf tree') tree' regular' (Nat.le_add_left _ _) 0 []
  rw [elements, elements] at equal
  rw [equal, second] at first
  exact (Prod.mk.inj (Option.some.inj first)).1.symm

theorem render_determines_skeleton (layout layout' : Layout) (table table' : SymbolTable) (tree tree' : Tree)
    (blank : BlankLines layout) (blank' : BlankLines layout') (regular : Regular tree) (regular' : Regular tree')
    (equal : render layout table tree = render layout' table' tree') : skeleton table tree = skeleton table' tree' := by
  have proper := prepend_proper table tree 0 [] (by simp [AllProper])
  have proper' := prepend_proper table' tree' 0 [] (by simp [AllProper])
  have text : pageText layout (elements table tree) = pageText layout' (elements table' tree') := congrArg String.toList equal
  apply skeleton_of_seen table table' tree tree' regular regular'
  exact seen_of_text layout layout' blank blank' _ _ proper proper' (congrArg _ text)

def waiting (symbol : Option Handle) : Tree :=
  .flow .loop (some (.literal (.charArray "<a&b>"))) (some (.assignment symbol .ret)) none

theorem waiting_regular (symbol : Option Handle) : Regular (waiting symbol) := by
  apply built_regular
  refine .made {} _ .empty (.loop (.literal (.charArray "<a&b>")) (some (.assignment symbol .ret))) _ ?_ rfl
  rintro operand (_ | ⟨_, _ | ⟨_, impossible⟩⟩)
  · exact .made {} _ .empty (.literal (.charArray "<a&b>")) _ (by simp [Production.operands]) rfl
  · refine .made {} _ .empty (.assignment symbol .ret) _ ?_ rfl
    rintro operand (_ | ⟨_, impossible⟩)
    · exact .made {} _ .empty .ret _ (by simp [Production.operands]) rfl
    · cases impossible
  · cases impossible

-- An absent name and one that leads nowhere look the same.
theorem render_determines_skeleton_waiting :
    render ⟨0, "\t"⟩ .empty (waiting none) = render ⟨0, "\t"⟩ .empty (waiting (some ⟨⟨3, 1⟩, 2⟩))
      ∧ skeleton .empty (waiting none) = skeleton .empty (waiting (some ⟨⟨3, 1⟩, 2⟩)) := by
  have equal : render ⟨0, "\t"⟩ .empty (waiting none) = render ⟨0, "\t"⟩ .empty (waiting (some ⟨⟨3, 1⟩, 2⟩)) := by rfl
  have blank : BlankLines ⟨0, "\t"⟩ := by simp [BlankLines, isBlank]
  exact ⟨equal, render_determines_skeleton _ _ _ _ _ _ blank blank (waiting_regular _) (waiting_regular _) equal⟩

end Frontend.Markup
