import Mathlib.Data.List.Permutation
import Frontend.Proofs.SymbolTable.Crowding

set_option autoImplicit false

namespace Frontend.SymbolTable

theorem filter_distinct_middle (front back : List ScopeId) (id : ScopeId) (distinct : (front ++ id :: back).Nodup) :
    (front ++ id :: back).filter (· != id) = front ++ back := by
  have apart := List.nodup_middle.mp distinct
  have others : ∀ other ∈ front ++ back, (other != id) = true := by
    intro other member
    rw [bne_iff_ne]
    rintro rfl
    exact (List.nodup_cons.mp apart).1 member
  rw [List.filter_append, List.filter_cons_of_neg (by simp), ← List.filter_append]
  exact List.filter_eq_self.mpr others

section Destroy

variable (table : SymbolTable) (id : ScopeId) (live : table.contains id = true) (linked : table.Linked)
include live linked

theorem destroy_inside (inner : ScopeId) (enclosed : table.Encloses id inner) :
    (table.destroy id).2.scope? inner = none :=
  destroy_met table id live linked inner (linked_encloses_meets table linked id inner live enclosed)

variable (nested : table.Nested)
include nested

theorem destroy_outside (other : ScopeId) (free : ¬ table.Encloses id other) :
    (table.destroy id).2.scope? other = (table.detached id).scope? other :=
  destroy_unmet table id live linked other (fun met => free (nested_meets_encloses table nested id other live met))

theorem meets_iff_encloses (inner : ScopeId) : table.Meets [id] inner ↔ table.Encloses id inner :=
  ⟨nested_meets_encloses table nested id inner live, linked_encloses_meets table linked id inner live⟩

theorem destroy_order :
    ∃ order : List ScopeId, order.Nodup ∧ (table.destroy id).1 = order.length ∧
      ∀ inner, inner ∈ order ↔ table.contains inner = true ∧ table.Encloses id inner := by
  obtain ⟨order, distinct, released, members, _⟩ := destroy_scope table id live linked
  refine ⟨order, distinct, released, fun inner => ?_⟩
  rw [members, meets_iff_encloses table id live linked nested]
  exact ⟨fun enclosed => ⟨encloses_live table id inner enclosed live, enclosed⟩, And.right⟩

theorem destroy_contains (other : ScopeId) :
    (table.destroy id).2.contains other = true ↔ table.contains other = true ∧ ¬ table.Encloses id other := by
  rw [destroy_live_iff table id live linked, meets_iff_encloses table id live linked nested]

theorem destroy_parent_list (outer : ScopeId) (around : Scope) (above : table.parent? id = some outer)
    (read : table.scope? outer = some around) (free : ¬ table.Encloses id outer) :
    ∃ front back, around.children = front ++ id :: back ∧
      (table.destroy id).2.scope? outer = some { around with children := front ++ back } := by
  have own := children_of_scope table outer around read
  have distinct := nested.once outer
  have listed := linked.listed id outer above
  rw [own] at distinct listed
  obtain ⟨front, back, split⟩ := List.append_of_mem listed
  refine ⟨front, back, split, ?_⟩
  rw [destroy_outside table id live linked nested outer free, detached, relink_scope, if_pos above, read, Option.map_some, split,
    filter_distinct_middle front back id (split ▸ distinct)]

end Destroy

-- Exactly the subtree goes as long as every slot has an index of its own.
theorem destroy_releases_subtree (table : SymbolTable) (reached : table.Reached) (id : ScopeId) :
    (table.contains id = true →
      table.destroyChecked id = some (table.destroy id) ∧
      (table.destroy id).2.names = table.names ∧
      (table.destroy id).2.scopeCount + (table.destroy id).1 = table.scopeCount ∧
      (∀ inner, table.Encloses id inner → (table.destroy id).2.contains inner = false) ∧
      (table.slots.size ≤ UInt32.size →
        (∃ order : List ScopeId, order.Nodup ∧ (table.destroy id).1 = order.length ∧
          ∀ inner, inner ∈ order ↔ table.contains inner = true ∧ table.Encloses id inner) ∧
        (∀ inner, (table.destroy id).2.contains inner = true ↔
          table.contains inner = true ∧ ¬ table.Encloses id inner) ∧
        ∀ other scope, table.scope? other = some scope → ¬ table.Encloses id other →
          (table.parent? id ≠ some other → (table.destroy id).2.scope? other = some scope) ∧
          (table.parent? id = some other → ∃ front back, scope.children = front ++ id :: back ∧
            (table.destroy id).2.scope? other = some { scope with children := front ++ back }))) ∧
    (table.contains id = false → table.destroy id = (0, table)) := by
  have sound := reached_sound table reached
  refine ⟨fun live => ?_, destroy_absent table id⟩
  obtain ⟨_, _, released, remaining⟩ := destroy_swept table id live
  refine ⟨destroy_checked table id live sound, destroy_names table id, ?_, ?_, fun room => ?_⟩
  · rw [scopeCount, scopeCount, released]
    exact (remaining sound.allocated).2
  · intro inner enclosed
    exact (not_contains_iff _ inner).mpr (destroy_inside table id live sound.linked inner enclosed)
  · have nested := reached_nested table reached room
    refine ⟨destroy_order table id live sound.linked nested, destroy_contains table id live sound.linked nested, ?_⟩
    intro other scope read free
    refine ⟨fun different => ?_,
      fun above => destroy_parent_list table id live sound.linked nested other scope above read free⟩
    rw [destroy_outside table id live sound.linked nested other free, detached, relink_scope, if_neg different]
    exact read

theorem destroy_releases_subtree_recycling :
    (empty.after recycling).Reached ∧ (empty.after recycling).contains ⟨2, 1⟩ = true ∧
      (empty.after recycling).slots.size = 3 ∧
      (empty.after recycling).Encloses ⟨2, 1⟩ ⟨1, 1⟩ ∧ ((empty.after recycling).destroy ⟨2, 1⟩).1 = 2 ∧
      ((empty.after recycling).destroy ⟨2, 1⟩).2.contains ⟨1, 1⟩ = false := by
  have reached : (empty.after recycling).Reached := ⟨recycling, rfl⟩
  have live : (empty.after recycling).contains ⟨2, 1⟩ = true := by cbv
  have size : (empty.after recycling).slots.size = 3 := by cbv
  have link : (empty.after recycling).parent? ⟨1, 1⟩ = some ⟨2, 1⟩ := by cbv
  have counted : ((empty.after recycling).destroy ⟨2, 1⟩).1 = 2 := by cbv
  obtain ⟨_, _, _, _, exactly⟩ := (destroy_releases_subtree (empty.after recycling) reached ⟨2, 1⟩).1 live
  obtain ⟨_, gone, _⟩ := exactly (by rw [size]; decide)
  refine ⟨reached, live, size, .single link, counted, ?_⟩
  rw [← Bool.not_eq_true, gone]
  exact fun kept => kept.2 (.single link)

-- With more slots than indices, the destruction of one root takes another root along.
theorem destroy_releases_stranger :
    crowded.Reached ∧ crowded.contains ⟨1, 0⟩ = true ∧ crowded.contains ⟨0, 0⟩ = true ∧
      ¬ crowded.Encloses ⟨1, 0⟩ ⟨0, 0⟩ ∧ (crowded.destroy ⟨1, 0⟩).2.contains ⟨0, 0⟩ = false := by
  unfold crowded
  have wide : UInt32.size - 2 + 2 = UInt32.size := rfl
  generalize UInt32.size - 2 = count at wide ⊢
  exact ⟨⟨crowding count, rfl⟩, crowding_live count wide _ rfl, crowding_live count wide _ rfl,
    crowding_apart count wide, crowding_gone count wide⟩

end Frontend.SymbolTable
