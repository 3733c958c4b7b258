import Frontend.Proofs.Page
import Frontend.Proofs.Text.Control
import Frontend.Outline

set_option autoImplicit false

namespace Frontend.Outline

-- What the beginning of a line says about a node. Sequences are not told from operations.
inductive Head where
  | binary
  | unary (kind : UnaryKind)
  | literal (type : ValueType)
  | reference
  | assignment
  | flow (kind : FlowKind)
  | jump
  | ret
deriving DecidableEq

def Head.text : Head → String
  | .binary => "binop "
  | .unary .op => "unop "
  | .unary .input => "vox"
  | .unary .output => "wouf"
  | .literal (.scalar .int) => "inumber "
  | .literal (.scalar .double) => "dnumber "
  | .literal (.scalar .char) => "cnumber "
  | .literal (.scalar .bool) => "bnumber "
  | .literal (.array .int) => "iarraynumber "
  | .literal (.array .double) => "darraynumber "
  | .literal (.array .char) => "carraynumber "
  | .literal (.array .bool) => "barraynumber "
  | .reference => "ref "
  | .assignment => "= "
  | .flow .branch => "flow - if"
  | .flow .loop => "flow - while"
  | .flow .function => "flow - func"
  | .jump => "goto"
  | .ret => "return Expression"

def heads : List Head :=
  [.binary, .unary .op, .unary .input, .unary .output, .literal (.scalar .int), .literal (.scalar .double),
    .literal (.scalar .char), .literal (.scalar .bool), .literal (.array .int), .literal (.array .double),
    .literal (.array .char), .literal (.array .bool), .reference, .assignment, .flow .branch, .flow .loop, .flow .function,
    .jump, .ret]

theorem heads_complete (head : Head) : head ∈ heads := by
  cases head with
  | unary kind => cases kind <;> decide
  | literal type => cases type with
    | scalar element => cases element <;> decide
    | array element => cases element <;> decide
  | flow kind => cases kind <;> decide
  | _ => decide

def headOf : Tree → Head
  | .binary _ _ _ _ _ => .binary
  | .unary kind _ _ _ => .unary kind
  | .literal value => .literal value.type
  | .reference _ _ => .reference
  | .assignment _ _ => .assignment
  | .flow kind _ _ _ => .flow kind
  | .jump => .jump
  | .ret => .ret

-- What follows the head on the line of a node.
def payload (table : SymbolTable) : Tree → String
  | .binary _ op _ _ _ => op.text
  | .unary .op op _ _ => op.text
  | .literal value => value.text
  | .reference _ symbol => table.shownName symbol
  | .assignment target _ => table.shownName target
  | _ => ""

theorem node_text (table : SymbolTable) (tree : Tree) : nodeText table tree = (headOf tree).text ++ payload table tree := by
  cases tree with
  | unary kind op type operand => cases kind <;> rfl
  | literal value => cases value <;> rfl
  | flow kind condition thenBranch elseBranch => cases kind <;> rfl
  | _ => rfl

def captions : List String := ["true-branch", "false-branch", "loop-body"]

section Heads

theorem heads_apart (a b : Head) (start : a.text.toList <+: b.text.toList) : a = b := by
  have apart : ∀ a ∈ heads, ∀ b ∈ heads, a.text.toList <+: b.text.toList → a = b := by decide +kernel
  exact apart a (heads_complete a) b (heads_complete b) start

theorem head_unique (a b : Head) (left right : List Char) (equal : a.text.toList ++ left = b.text.toList ++ right) :
    a = b ∧ left = right := by
  have start : a.text.toList <+: b.text.toList ++ right := ⟨left, equal⟩
  have same : a = b := by
    rcases List.prefix_or_prefix_of_prefix start (List.prefix_append b.text.toList right) with short | long
    · exact heads_apart a b short
    · exact (heads_apart b a long).symm
  subst same
  exact ⟨rfl, List.append_cancel_left equal⟩

theorem head_printable (head : Head) : head.text.toList.flatMap Text.printableChar = head.text.toList := by
  have quiet : ∀ head ∈ heads, head.text.toList.flatMap Text.printableChar = head.text.toList := by decide +kernel
  exact quiet head (heads_complete head)

theorem head_not_beside (head : Head) (text : String) (known : text ∈ "NULL" :: captions) :
    ¬ head.text.toList <+: text.toList := by
  have differs : ∀ head ∈ heads, ∀ text ∈ "NULL" :: captions, ¬ head.text.toList <+: text.toList := by decide +kernel
  exact differs head (heads_complete head) text known

theorem head_start (head : Head) (rest : List Char) : (head.text.toList ++ rest).head? ≠ some ' ' := by
  have marked : ∀ head ∈ heads, head.text.toList ≠ [] ∧ head.text.toList.head? ≠ some ' ' := by decide +kernel
  obtain ⟨nonempty, start⟩ := marked head (heads_complete head)
  rw [List.head?_append_of_ne_nil _ nonempty]
  exact start

end Heads

theorem node_line (table : SymbolTable) (tree : Tree) :
    (Content.node (nodeText table tree)).text.toList =
      (headOf tree).text.toList ++ (payload table tree).toList.flatMap Text.printableChar := by
  rw [Content.text, Text.printable_chars, node_text, String.toList_append, List.flatMap_append, head_printable]

theorem node_line_unique (table table' : SymbolTable) (tree tree' : Tree)
    (equal : (Content.node (nodeText table tree)).text = (Content.node (nodeText table' tree')).text) :
    headOf tree = headOf tree' ∧
      (payload table tree).toList.flatMap Text.printableChar = (payload table' tree').toList.flatMap Text.printableChar := by
  have chars := congrArg String.toList equal
  rw [node_line, node_line] at chars
  exact head_unique _ _ _ _ chars

theorem node_line_not_missing (table : SymbolTable) (tree : Tree) : (Content.node (nodeText table tree)).text ≠ "NULL" := by
  intro equal
  apply head_not_beside (headOf tree) "NULL" List.mem_cons_self
  rw [← equal, node_line]
  exact List.prefix_append _ _

-- A rule that covers whatever an outline can have a line for.
structure Covers (table : SymbolTable) (rule : Entry → Prop) : Prop where
  node : ∀ level tree, rule (nodeEntry table level tree)
  caption : ∀ level, ∀ text ∈ captions, rule ⟨level, .caption text⟩
  missing : ∀ level, rule ⟨level, .missing⟩

section Parts

variable (table : SymbolTable) (rule : Entry → Prop) (covers : Covers table rule) (part : Option Tree) (level : Nat)
variable (rest : List Entry) (behind : ∀ entry ∈ rest, rule entry)
variable (inside : ∀ tree, part = some tree → ∀ level rest, (∀ entry ∈ rest, rule entry) →
  ∀ entry ∈ prepend table level tree rest, rule entry)
include covers behind inside

theorem part_all : ∀ entry ∈ prependPart table level part rest, rule entry := by
  cases part with
  | none => exact List.forall_mem_cons.mpr ⟨covers.missing level, behind⟩
  | some tree => exact inside tree rfl level rest behind

theorem branch_all (caption : String) (known : caption ∈ captions) :
    ∀ entry ∈ prependBranch table level caption part rest, rule entry := by
  cases part with
  | none => exact behind
  | some tree => exact List.forall_mem_cons.mpr ⟨covers.caption level caption known, inside tree rfl (level + 1) rest behind⟩

end Parts

theorem prepend_all (table : SymbolTable) (rule : Entry → Prop) (covers : Covers table rule) (tree : Tree) (level : Nat)
    (rest : List Entry) (behind : ∀ entry ∈ rest, rule entry) : ∀ entry ∈ prepend table level tree rest, rule entry := by
  induction tree generalizing level rest with
  | binary kind op type left right ihLeft ihRight =>
      exact List.forall_mem_cons.mpr ⟨covers.node level _, ihLeft (level + 1) _ (ihRight (level + 1) rest behind)⟩
  | unary kind op type operand ih => exact List.forall_mem_cons.mpr ⟨covers.node level _, ih (level + 1) rest behind⟩
  | assignment target value ih => exact List.forall_mem_cons.mpr ⟨covers.node level _, ih (level + 1) rest behind⟩
  | flow kind condition thenBranch elseBranch ihCondition ihThen ihElse =>
      have inCondition := fun rest behind => part_all table rule covers condition (level + 1) rest behind ihCondition
      cases kind with
      | branch =>
          have inElse := branch_all table rule covers elseBranch (level + 1) rest behind ihElse "false-branch" (by decide)
          have inThen := branch_all table rule covers thenBranch (level + 1) _ inElse ihThen "true-branch" (by decide)
          exact List.forall_mem_cons.mpr ⟨covers.node level _, inCondition _ inThen⟩
      | loop =>
          have inBody := branch_all table rule covers thenBranch (level + 1) rest behind ihThen "loop-body" (by decide)
          exact List.forall_mem_cons.mpr ⟨covers.node level _, inCondition _ inBody⟩
      | function =>
          have inBody := part_all table rule covers thenBranch (level + 1) rest behind ihThen
          exact List.forall_mem_cons.mpr ⟨covers.node level _, inBody⟩
  | _ => exact List.forall_mem_cons.mpr ⟨covers.node level _, behind⟩

theorem plain_covers (table : SymbolTable) : Covers table fun entry => entry.line.Plain := by
  refine ⟨?_, ?_, ?_⟩
  · intro level tree
    refine ⟨fun broken => ?_, ?_⟩
    · have quiet := Text.printable_quiet (nodeText table tree) '\n' broken
      exact absurd quiet (by decide)
    · change (Content.node (nodeText table tree)).text.toList.head? ≠ some ' '
      rw [node_line]
      exact head_start _ _
  · have fixed : ∀ text ∈ captions, '\n' ∉ text.toList ∧ text.toList.head? ≠ some ' ' := by decide
    exact fun level => fixed
  · intro level
    exact (by decide : '\n' ∉ "NULL".toList ∧ "NULL".toList.head? ≠ some ' ')

def lines (entries : List Entry) : Page := entries.map Entry.line

theorem lines_plain (table : SymbolTable) (tree : Tree) : ∀ line ∈ lines (entries table tree), line.Plain := by
  intro line member
  obtain ⟨entry, inside, rfl⟩ := List.mem_map.mp member
  exact prepend_all table _ (plain_covers table) tree 0 [] (by simp) entry inside

end Frontend.Outline
