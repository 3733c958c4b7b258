import Frontend.Markup.Basic
import Frontend.Outline
import Frontend.Proofs.Builder.Shape
import Frontend.Proofs.Tree.Preorder

set_option autoImplicit false

namespace Frontend

namespace Tree

mutual

def mapSymbols (change : Option Handle → Option Handle) : Tree → Tree
  | .binary kind op type left right => .binary kind op type (left.mapSymbols change) (right.mapSymbols change)
  | .unary kind op type operand => .unary kind op type (operand.mapSymbols change)
  | .literal value => .literal value
  | .reference type symbol => .reference type (change symbol)
  | .assignment target value => .assignment (change target) (value.mapSymbols change)
  | .flow kind condition thenBranch elseBranch =>
    .flow kind (mapPartSymbols change condition) (mapPartSymbols change thenBranch) (mapPartSymbols change elseBranch)
  | .jump => .jump
  | .ret => .ret

def mapPartSymbols (change : Option Handle → Option Handle) : Option Tree → Option Tree
  | none => none
  | some tree => some (tree.mapSymbols change)

end

section Fixed

variable (change : Option Handle → Option Handle)

def Fixed (tree : Tree) : Prop := ∀ handle ∈ tree.handles, change (some handle) = some handle

theorem fixed_root (absent : change none = none) (tree : Tree) (fixed : Fixed change tree) :
    change tree.handle? = tree.handle? := by
  cases held : tree.handle? with
  | none => exact absent
  | some handle => exact fixed handle ((mem_handles tree handle).mpr (Or.inl held))

theorem fixed_child (tree : Tree) (fixed : Fixed change tree) (child : Tree) (member : child ∈ tree.children) :
    Fixed change child :=
  fun handle held => fixed handle ((mem_handles tree handle).mpr (Or.inr ⟨child, member, held⟩))

theorem map_part_fixed (part : Option Tree) (same : ∀ tree, part = some tree → tree.mapSymbols change = tree) :
    mapPartSymbols change part = part := by
  cases part with
  | none => rfl
  | some tree => rw [mapPartSymbols, same tree rfl]

theorem map_symbols_fixed (absent : change none = none) (tree : Tree) (fixed : Fixed change tree) :
    tree.mapSymbols change = tree := by
  induction tree with
  | binary kind op type left right leftCase rightCase =>
      have below := fixed_child change _ fixed
      rw [mapSymbols, leftCase (below left (by simp [children])), rightCase (below right (by simp [children]))]
  | unary kind op type operand operandCase =>
      rw [mapSymbols, operandCase (fixed_child change _ fixed operand (by simp [children]))]
  | reference type symbol => exact congrArg (Tree.reference type) (fixed_root change absent _ fixed)
  | assignment target value valueCase =>
      rw [mapSymbols, valueCase (fixed_child change _ fixed value (by simp [children]))]
      exact congrArg (fun symbol => Tree.assignment symbol value) (fixed_root change absent _ fixed)
  | flow kind condition thenBranch elseBranch conditionCase thenCase elseCase =>
      obtain ⟨conditionFixed, thenFixed, elseFixed⟩ :=
        flow_parts kind condition thenBranch elseBranch (Fixed change) (fixed_child change _ fixed)
      have conditions :=
        map_part_fixed change condition fun tree present => conditionCase tree present (conditionFixed tree present)
      have thens := map_part_fixed change thenBranch fun tree present => thenCase tree present (thenFixed tree present)
      have elses := map_part_fixed change elseBranch fun tree present => elseCase tree present (elseFixed tree present)
      rw [mapSymbols, conditions, thens, elses]
  | _ => rfl

end Fixed

end Tree

section Renamed

variable (next table : SymbolTable) (change : Option Handle → Option Handle)

namespace Outline

def Renamed (tree : Tree) : Prop :=
  ∀ level rest, prepend next level tree rest = prepend table level (tree.mapSymbols change) rest

theorem node_entry_renamed (names : ∀ symbol, next.shownName symbol = table.shownName (change symbol)) (level : Nat)
    (tree : Tree) : nodeEntry next level tree = nodeEntry table level (tree.mapSymbols change) := by
  have text : nodeText next tree = nodeText table (tree.mapSymbols change) := by
    cases tree with
    | reference type symbol => exact congrArg ("ref " ++ ·) (names symbol)
    | assignment target value => exact congrArg ("= " ++ ·) (names target)
    | unary kind op type operand => cases kind <;> rfl
    | flow kind condition thenBranch elseBranch => cases kind <;> rfl
    | _ => rfl
  rw [nodeEntry, nodeEntry, text]

theorem part_renamed (part : Option Tree) (renamed : ∀ tree, part = some tree → Renamed next table change tree)
    (level : Nat) (rest : List Entry) :
    prependPart next level part rest = prependPart table level (Tree.mapPartSymbols change part) rest := by
  cases part with
  | none => rfl
  | some tree => exact renamed tree rfl level rest

theorem branch_renamed (part : Option Tree) (renamed : ∀ tree, part = some tree → Renamed next table change tree)
    (level : Nat) (caption : String) (rest : List Entry) :
    prependBranch next level caption part rest = prependBranch table level caption (Tree.mapPartSymbols change part) rest := by
  cases part with
  | none => rfl
  | some tree => exact congrArg (List.cons _) (renamed tree rfl (level + 1) rest)

theorem tree_renamed (names : ∀ symbol, next.shownName symbol = table.shownName (change symbol)) (tree : Tree) :
    Renamed next table change tree := by
  have entry := node_entry_renamed next table change names
  induction tree with
  | binary kind op type left right leftCase rightCase =>
      intro level rest
      rw [prepend, entry, leftCase, rightCase]
      rfl
  | unary kind op type operand operandCase =>
      intro level rest
      rw [prepend, entry, operandCase]
      rfl
  | assignment target value valueCase =>
      intro level rest
      rw [prepend, entry, valueCase]
      rfl
  | flow kind condition thenBranch elseBranch conditionCase thenCase elseCase =>
      intro level rest
      have conditions := part_renamed next table change condition conditionCase
      cases kind with
      | branch =>
          rw [prepend, entry, conditions, branch_renamed next table change thenBranch thenCase,
            branch_renamed next table change elseBranch elseCase]
          rfl
      | loop =>
          rw [prepend, entry, conditions, branch_renamed next table change thenBranch thenCase]
          rfl
      | function =>
          rw [prepend, entry, part_renamed next table change thenBranch thenCase]
          rfl
  | _ =>
      intro level rest
      rw [prepend, entry]
      rfl

theorem render_renamed (names : ∀ symbol, next.shownName symbol = table.shownName (change symbol)) (layout : Layout)
    (tree : Tree) : render layout next tree = render layout table (tree.mapSymbols change) := by
  rw [render, render, entries, entries, tree_renamed next table change names]

end Outline

namespace Markup

def Renamed (tree : Tree) : Prop :=
  ∀ level rest, prepend next level tree rest = prepend table level (tree.mapSymbols change) rest

theorem section_renamed (part : Option Tree) (renamed : ∀ tree, part = some tree → Renamed next table change tree)
    (level : Nat) (tag : String) (rest : List Element) :
    prependSection next level tag part rest = prependSection table level tag (Tree.mapPartSymbols change part) rest := by
  cases part with
  | none => rfl
  | some tree => exact congrArg (List.cons _) (renamed tree rfl (level + 1) _)

theorem body_renamed (part : Option Tree) (renamed : ∀ tree, part = some tree → Renamed next table change tree)
    (level : Nat) (rest : List Element) :
    prependBody next level part rest = prependBody table level (Tree.mapPartSymbols change part) rest := by
  cases part with
  | none => rfl
  | some tree => exact renamed tree rfl level rest

theorem tree_renamed (names : ∀ symbol, next.shownName symbol = table.shownName (change symbol)) (tree : Tree) :
    Renamed next table change tree := by
  induction tree with
  | binary kind op type left right leftCase rightCase =>
      intro level rest
      cases kind <;> rw [prepend, leftCase, rightCase] <;> rfl
  | unary kind op type operand operandCase =>
      intro level rest
      cases kind <;> rw [prepend, operandCase] <;> rfl
  | reference type symbol =>
      intro level rest
      rw [prepend, names]
      rfl
  | assignment target value valueCase =>
      intro level rest
      rw [prepend, names, valueCase]
      rfl
  | flow kind condition thenBranch elseBranch conditionCase thenCase elseCase =>
      intro level rest
      have conditions := section_renamed next table change condition conditionCase
      have thens := section_renamed next table change thenBranch thenCase
      cases kind with
      | branch =>
          rw [prepend, conditions, thens, section_renamed next table change elseBranch elseCase]
          rfl
      | loop =>
          rw [prepend, conditions, thens]
          rfl
      | function =>
          rw [prepend, body_renamed next table change thenBranch thenCase]
          rfl
  | _ =>
      intro level rest
      rfl

theorem render_renamed (names : ∀ symbol, next.shownName symbol = table.shownName (change symbol)) (layout : Layout)
    (tree : Tree) : render layout next tree = render layout table (tree.mapSymbols change) := by
  rw [render, render, elements, elements, tree_renamed next table change names]

end Markup

end Renamed

end Frontend
