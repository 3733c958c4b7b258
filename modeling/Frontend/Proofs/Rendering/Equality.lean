import Frontend.Markup.Basic
import Frontend.Outline
import Frontend.Proofs.Tree.Equality
import Frontend.Proofs.Tree.Release

set_option autoImplicit false

namespace Frontend.Tree

theorem alike_traversals (a b : Tree) (alike : a.canonical = b.canonical) :
    a.visited.map kind = b.visited.map kind ∧ a.count = b.count ∧ a.handles = b.handles ∧
      a.releaseOrder = b.releaseOrder := by
  have kinds := alike_seen a b alike kind kind_canonical
  have symbols := alike_seen a b alike handle? handle_canonical
  refine ⟨?_, ?_, ?_, ?_⟩
  · rw [visited_preorder, visited_preorder, List.map_toArray, List.map_toArray, kinds]
  · rw [count_preorder, count_preorder, ← List.length_map kind, kinds, List.length_map]
  · have held := congrArg (List.filterMap id) symbols
    rw [List.filterMap_map, List.filterMap_map] at held
    rw [handles_preorder, handles_preorder]
    exact congrArg List.toArray held
  · rw [← Array.toList_inj, release_order, release_order, kinds]

theorem same_congruence :
    (∀ tree : Tree, tree.same tree = true ↔ ∀ d ∈ tree.doubles, d.isNaN = false) ∧
    (∀ a b : Tree, a.same b = b.same a) ∧
    (∀ a b c : Tree, a.same b = true → b.same c = true → a.same c = true) ∧
    ∀ a b : Tree, a.same b = true →
      a.visited.map kind = b.visited.map kind ∧ a.count = b.count ∧ a.type = b.type ∧ a.handles = b.handles ∧
      a.releaseOrder = b.releaseOrder ∧
      ((∀ d ∈ a.doubles, d.isZero = false) → ∀ (layout : Layout) (table : SymbolTable),
        Outline.render layout table a = Outline.render layout table b ∧
        Markup.render layout table a = Markup.render layout table b) := by
  refine ⟨same_refl_iff, same_comm, same_trans, ?_⟩
  intro a b equal
  obtain ⟨_, alike⟩ := (same_iff a b).mp equal
  obtain ⟨kinds, counts, symbols, order⟩ := alike_traversals a b alike
  have types : a.type = b.type := by rw [← type_canonical a, alike, type_canonical]
  refine ⟨kinds, counts, types, symbols, order, ?_⟩
  intro nonzero layout table
  rw [alike_equal a b alike nonzero]
  exact ⟨rfl, rfl⟩

def measured (reading : Double) : Tree :=
  .flow .loop none (some (.literal (.doubleArray [⟨0x3ff8000000000000⟩, reading]))) (some (.literal (.double reading)))

-- The readings are the two zeros, a NaN and one and a half.
theorem same_congruence_measured :
    (measured ⟨0⟩).same (measured ⟨0x8000000000000000⟩) = true ∧
    (measured ⟨0⟩).releaseOrder = (measured ⟨0x8000000000000000⟩).releaseOrder ∧
    (measured ⟨0x7ff8000000000000⟩).same (measured ⟨0x7ff8000000000000⟩) = false ∧
    (∀ d ∈ (measured ⟨0x3ff8000000000000⟩).doubles, d.isZero = false) ∧
    (measured ⟨0x3ff8000000000000⟩).same (measured ⟨0x3ff8000000000000⟩) = true ∧
    ∀ other, (measured ⟨0x3ff8000000000000⟩).same other = true → ∀ layout table,
      Outline.render layout table (measured ⟨0x3ff8000000000000⟩) = Outline.render layout table other ∧
      Markup.render layout table (measured ⟨0x3ff8000000000000⟩) = Markup.render layout table other := by
  obtain ⟨reflexive, _, _, congruent⟩ := same_congruence
  have zeros : (measured ⟨0⟩).same (measured ⟨0x8000000000000000⟩) = true := by decide
  have nonzero : ∀ d ∈ (measured ⟨0x3ff8000000000000⟩).doubles, d.isZero = false := by decide
  have numeric : ∀ d ∈ (measured ⟨0x3ff8000000000000⟩).doubles, d.isNaN = false := by decide
  have nan : ¬ ∀ d ∈ (measured ⟨0x7ff8000000000000⟩).doubles, d.isNaN = false := by decide
  obtain ⟨_, _, _, _, order, _⟩ := congruent _ _ zeros
  refine ⟨zeros, order, ?_, nonzero, (reflexive _).mpr numeric, ?_⟩
  · exact Bool.eq_false_iff.mpr fun equal => nan ((reflexive _).mp equal)
  · intro other equal
    obtain ⟨_, _, _, _, _, rendered⟩ := congruent _ _ equal
    exact rendered nonzero

end Frontend.Tree
