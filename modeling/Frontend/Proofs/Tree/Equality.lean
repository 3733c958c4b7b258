import Mathlib.Tactic.Tauto
import Frontend.Proofs.Tree.Preorder

set_option autoImplicit false

namespace Frontend

namespace Double

-- One zero stands for both.
def canonical (d : Double) : Double := if d.isZero then zero else d

theorem zero_not_nan (d : Double) (isZero : d.isZero = true) : d.isNaN = false := by
  simp only [Double.isZero, Bool.and_eq_true, beq_iff_eq] at isZero
  simp [isNaN, isZero]

theorem canonical_fixed (d : Double) (nonzero : d.isZero = false) : d.canonical = d := by
  simp [canonical, nonzero]

theorem canonical_zero (d : Double) : d.canonical.isZero = d.isZero := by
  cases isZero : d.isZero with
  | true =>
      rw [canonical, if_pos isZero]
      decide
  | false => rw [canonical_fixed d isZero, isZero]

theorem canonical_nan (d : Double) : d.canonical.isNaN = d.isNaN := by
  cases isZero : d.isZero with
  | true =>
      rw [canonical, if_pos isZero, zero_not_nan d isZero]
      decide
  | false => rw [canonical_fixed d isZero]

theorem bits_unique (a b : Double) : a.bits = b.bits ↔ a = b := by
  cases a
  cases b
  simp

theorem same_iff (a b : Double) : a.same b = true ↔ a.isNaN = false ∧ a.canonical = b.canonical := by
  simp only [same, Bool.and_eq_true, Bool.or_eq_true, Bool.not_eq_true', beq_iff_eq, bits_unique]
  constructor
  · intro equal
    obtain ⟨⟨number, _⟩, rfl | ⟨isZero, isZeroToo⟩⟩ := equal
    · exact ⟨number, rfl⟩
    · exact ⟨number, by rw [canonical, canonical, if_pos isZero, if_pos isZeroToo]⟩
  · intro equal
    obtain ⟨number, canonicals⟩ := equal
    have numbers : a.isNaN = b.isNaN := by rw [← canonical_nan a, canonicals, canonical_nan]
    have zeros : a.isZero = b.isZero := by rw [← canonical_zero a, canonicals, canonical_zero]
    refine ⟨⟨number, numbers ▸ number⟩, ?_⟩
    cases isZero : a.isZero with
    | true => exact Or.inr ⟨rfl, zeros ▸ isZero⟩
    | false =>
        rw [canonical_fixed a isZero, canonical_fixed b (zeros ▸ isZero)] at canonicals
        exact Or.inl canonicals

end Double

namespace Literal

def doubles : Literal → List Double
  | .double value => [value]
  | .doubleArray values => values
  | _ => []

def canonical : Literal → Literal
  | .double value => .double value.canonical
  | .doubleArray values => .doubleArray (values.map Double.canonical)
  | value => value

theorem same_doubles_iff (as bs : List Double) :
    sameDoubles as bs = true ↔ (∀ d ∈ as, d.isNaN = false) ∧ as.map Double.canonical = bs.map Double.canonical := by
  induction as generalizing bs with
  | nil => cases bs <;> simp [sameDoubles]
  | cons a as ih =>
      cases bs with
      | nil => simp [sameDoubles]
      | cons b bs =>
          simp only [sameDoubles, Bool.and_eq_true, Double.same_iff, ih, List.forall_mem_cons, List.map_cons, List.cons.injEq]
          tauto

theorem same_iff (a b : Literal) :
    a.same b = true ↔ (∀ d ∈ a.doubles, d.isNaN = false) ∧ a.canonical = b.canonical := by
  cases a with
  | double value => cases b <;> simp [same, doubles, canonical, Double.same_iff]
  | doubleArray values => cases b <;> simp [same, doubles, canonical, same_doubles_iff]
  | _ => cases b <;> simp [same, doubles, canonical]

theorem doubles_canonical (value : Literal) : value.canonical.doubles = value.doubles.map Double.canonical := by
  cases value <;> rfl

theorem type_canonical (value : Literal) : value.canonical.type = value.type := by
  cases value <;> rfl

theorem canonical_fixed (value : Literal) (nonzero : ∀ d ∈ value.doubles, d.isZero = false) : value.canonical = value := by
  cases value with
  | double value => rw [canonical, Double.canonical_fixed value (nonzero value (by simp [doubles]))]
  | doubleArray values =>
      have each : ∀ d ∈ values, d.canonical = id d := fun d member => Double.canonical_fixed d (nonzero d member)
      rw [canonical, List.map_congr_left each, List.map_id]
  | _ => rfl

end Literal

namespace Tree

def ownDoubles : Tree → List Double
  | .literal value => value.doubles
  | _ => []

def doubles (tree : Tree) : List Double := tree.preorder.flatMap ownDoubles

theorem doubles_children (tree : Tree) : tree.doubles = tree.ownDoubles ++ tree.children.flatMap doubles := by
  rw [doubles, preorder_children, List.flatMap_cons, List.flatMap_assoc]
  rfl

mutual

def canonical : Tree → Tree
  | .binary kind op type left right => .binary kind op type left.canonical right.canonical
  | .unary kind op type operand => .unary kind op type operand.canonical
  | .literal value => .literal value.canonical
  | .reference type symbol => .reference type symbol
  | .assignment target value => .assignment target value.canonical
  | .flow kind condition thenBranch elseBranch =>
    .flow kind (canonicalPart condition) (canonicalPart thenBranch) (canonicalPart elseBranch)
  | .jump => .jump
  | .ret => .ret

def canonicalPart : Option Tree → Option Tree
  | none => none
  | some tree => some tree.canonical

end

def Free (trait : Double → Bool) (tree : Tree) : Prop := ∀ d ∈ tree.doubles, trait d = false

theorem free_children (trait : Double → Bool) (tree : Tree) :
    tree.Free trait ↔ (∀ d ∈ tree.ownDoubles, trait d = false) ∧ ∀ child ∈ tree.children, child.Free trait := by
  simp only [Free, doubles_children tree, List.forall_mem_append, List.forall_mem_flatMap]

section Same

def Compared (tree : Tree) : Prop :=
  ∀ other, tree.same other = true ↔ tree.Free Double.isNaN ∧ tree.canonical = other.canonical

theorem same_part_iff (part other : Option Tree) (compared : ∀ tree, part = some tree → Compared tree) :
    samePart part other = true ↔
      (∀ tree ∈ part.toList, tree.Free Double.isNaN) ∧ canonicalPart part = canonicalPart other := by
  cases part with
  | none => cases other <;> simp [samePart, canonicalPart]
  | some tree =>
      cases other with
      | none => simp [samePart, canonicalPart]
      | some other => simp [samePart, canonicalPart, compared tree rfl other]

-- Trees of different shapes are neither equal nor the same after the change, so that only one case is left for each shape.
theorem same_iff (tree : Tree) : Compared tree := by
  have free := free_children Double.isNaN
  induction tree with
  | binary kind op type left right leftCase rightCase =>
      intro other
      cases other with
      | binary kind' op' type' left' right' =>
          simp only [free (.binary kind op type left right), same, canonical, ownDoubles, children, leftCase left',
            rightCase right', binary.injEq, Bool.and_eq_true, beq_iff_eq, List.forall_mem_cons, List.not_mem_nil]
          tauto
      | _ => simp [same, canonical]
  | unary kind op type operand operandCase =>
      intro other
      cases other with
      | unary kind' op' type' operand' =>
          simp only [free (.unary kind op type operand), same, canonical, ownDoubles, children, operandCase operand',
            unary.injEq, Bool.and_eq_true, beq_iff_eq, List.forall_mem_cons, List.not_mem_nil]
          tauto
      | _ => simp [same, canonical]
  | literal value =>
      intro other
      cases other with
      | literal value' => simp [free (.literal value), same, canonical, ownDoubles, children, Literal.same_iff]
      | _ => simp [same, canonical]
  | assignment target value valueCase =>
      intro other
      cases other with
      | assignment target' value' =>
          simp only [free (.assignment target value), same, canonical, ownDoubles, children, valueCase value',
            assignment.injEq, Bool.and_eq_true, beq_iff_eq, List.forall_mem_cons, List.not_mem_nil]
          tauto
      | _ => simp [same, canonical]
  | flow kind condition thenBranch elseBranch conditionCase thenCase elseCase =>
      intro other
      cases other with
      | flow kind' condition' thenBranch' elseBranch' =>
          simp only [free (.flow kind condition thenBranch elseBranch), same, canonical, ownDoubles, children,
            same_part_iff condition condition' conditionCase, same_part_iff thenBranch thenBranch' thenCase,
            same_part_iff elseBranch elseBranch' elseCase, flow.injEq, Bool.and_eq_true, beq_iff_eq,
            List.forall_mem_append, List.not_mem_nil]
          tauto
      | _ => simp [same, canonical]
  | reference type symbol =>
      intro other
      cases other <;> simp [free (.reference type symbol), same, canonical, ownDoubles, children]
  | jump =>
      intro other
      cases other <;> simp [free .jump, same, canonical, ownDoubles, children]
  | ret =>
      intro other
      cases other <;> simp [free .ret, same, canonical, ownDoubles, children]

end Same

section Canonical

theorem part_canonical (part : Option Tree) : (canonicalPart part).toList = part.toList.map canonical := by
  cases part <;> rfl

theorem children_canonical (tree : Tree) : tree.canonical.children = tree.children.map canonical := by
  cases tree with
  | flow kind condition thenBranch elseBranch => simp [canonical, children, part_canonical]
  | _ => rfl

theorem preorder_canonical (tree : Tree) : tree.canonical.preorder = tree.preorder.map canonical := by
  induction tree using child_induct with
  | node tree ih =>
      rw [preorder_children, children_canonical, preorder_children tree, List.map_cons, List.flatMap_map, List.map_flatMap]
      exact congrArg _ (List.flatMap_congr ih)

theorem kind_canonical (tree : Tree) : tree.canonical.kind = tree.kind := by
  cases tree with
  | binary kind op type left right => cases kind <;> rfl
  | unary kind op type operand => cases kind <;> rfl
  | flow kind condition thenBranch elseBranch => cases kind <;> rfl
  | _ => rfl

theorem type_canonical (tree : Tree) : tree.canonical.type = tree.type := by
  cases tree with
  | literal value => exact congrArg some value.type_canonical
  | _ => rfl

theorem handle_canonical (tree : Tree) : tree.canonical.handle? = tree.handle? := by
  cases tree <;> rfl

theorem doubles_canonical (tree : Tree) : tree.canonical.doubles = tree.doubles.map Double.canonical := by
  have own : ∀ inner ∈ tree.preorder, inner.canonical.ownDoubles = inner.ownDoubles.map Double.canonical := by
    intro inner _
    cases inner with
    | literal value => exact value.doubles_canonical
    | _ => rfl
  rw [doubles, doubles, preorder_canonical, List.flatMap_map, List.map_flatMap]
  exact List.flatMap_congr own

theorem free_canonical (trait : Double → Bool) (blind : ∀ d : Double, trait d.canonical = trait d) (tree : Tree) :
    tree.canonical.Free trait ↔ tree.Free trait := by
  simp [Free, doubles_canonical, blind]

theorem canonical_part_fixed (part : Option Tree) (fixed : ∀ tree, part = some tree → tree.canonical = tree) :
    canonicalPart part = part := by
  cases part with
  | none => rfl
  | some tree => rw [canonicalPart, fixed tree rfl]

theorem canonical_fixed (tree : Tree) (nonzero : tree.Free Double.isZero) : tree.canonical = tree := by
  induction tree using child_induct with
  | node tree ih =>
      obtain ⟨own, below⟩ := (free_children Double.isZero tree).mp nonzero
      have inside : ∀ child ∈ tree.children, child.canonical = child :=
        fun child member => ih child member (below child member)
      cases tree with
      | binary kind op type left right => rw [canonical, inside left (by simp [children]), inside right (by simp [children])]
      | unary kind op type operand => rw [canonical, inside operand (by simp [children])]
      | literal value => rw [canonical, value.canonical_fixed own]
      | assignment target value => rw [canonical, inside value (by simp [children])]
      | flow kind condition thenBranch elseBranch =>
          have conditions := canonical_part_fixed condition fun tree present => inside tree (by simp [children, present])
          have thens := canonical_part_fixed thenBranch fun tree present => inside tree (by simp [children, present])
          have elses := canonical_part_fixed elseBranch fun tree present => inside tree (by simp [children, present])
          rw [canonical, conditions, thens, elses]
      | _ => rfl

end Canonical

section Alike

variable (a b : Tree) (alike : a.canonical = b.canonical)
include alike

theorem alike_seen {α : Type} (see : Tree → α) (blind : ∀ tree : Tree, see tree.canonical = see tree) :
    a.preorder.map see = b.preorder.map see := by
  have through : ∀ tree : Tree, tree.canonical.preorder.map see = tree.preorder.map see := by
    intro tree
    rw [preorder_canonical, List.map_map]
    exact List.map_congr_left fun inner _ => blind inner
  rw [← through a, alike, through b]

theorem alike_free (trait : Double → Bool) (blind : ∀ d : Double, trait d.canonical = trait d) :
    a.Free trait ↔ b.Free trait := by
  rw [← free_canonical trait blind a, alike, free_canonical trait blind b]

theorem alike_equal (nonzero : a.Free Double.isZero) : a = b := by
  have nonzeroToo := (alike_free a b alike Double.isZero Double.canonical_zero).mp nonzero
  rw [canonical_fixed a nonzero, canonical_fixed b nonzeroToo] at alike
  exact alike

end Alike

theorem same_comm (a b : Tree) : a.same b = b.same a := by
  rw [Bool.eq_iff_iff, same_iff a b, same_iff b a]
  constructor
  · intro equal
    obtain ⟨numeric, alike⟩ := equal
    exact ⟨(alike_free a b alike Double.isNaN Double.canonical_nan).mp numeric, alike.symm⟩
  · intro equal
    obtain ⟨numeric, alike⟩ := equal
    exact ⟨(alike_free b a alike Double.isNaN Double.canonical_nan).mp numeric, alike.symm⟩

theorem same_trans (a b c : Tree) (first : a.same b = true) (second : b.same c = true) : a.same c = true := by
  obtain ⟨numeric, alike⟩ := (same_iff a b).mp first
  obtain ⟨_, alikeToo⟩ := (same_iff b c).mp second
  exact (same_iff a c).mpr ⟨numeric, alike.trans alikeToo⟩

theorem same_refl_iff (tree : Tree) : tree.same tree = true ↔ tree.Free Double.isNaN := by
  rw [same_iff tree tree, and_iff_left rfl]

end Tree

end Frontend
