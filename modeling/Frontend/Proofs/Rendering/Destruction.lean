import Frontend.Proofs.Rendering.Symbols
import Frontend.Proofs.SymbolTable.Stability

set_option autoImplicit false

namespace Frontend

namespace SymbolTable

section Destroy

variable (table : SymbolTable) (id : ScopeId) (live : table.contains id = true) (linked : table.Linked)
include live linked

theorem destroy_name_inside (handle : Handle) (enclosed : table.Encloses id handle.scope) :
    (table.destroy id).2.nameOf? handle = none := by
  rw [nameOf?, record?, destroy_inside table id live linked handle.scope enclosed]
  rfl

theorem destroy_name_outside (nested : table.Nested) (handle : Handle) (free : ¬ table.Encloses id handle.scope) :
    (table.destroy id).2.nameOf? handle = table.nameOf? handle := by
  have record : (table.destroy id).2.record? handle = table.record? handle := by
    rw [record?, destroy_outside table id live linked nested handle.scope free]
    exact relink_record_same table (table.parent? id) _ handle
  rw [nameOf?, nameOf?, record, destroy_names]

end Destroy

-- Makes a symbol absent if it leads into the scope or into one nested in it.
def sever (table : SymbolTable) (id : ScopeId) [DecidablePred (table.Encloses id)] (symbol : Option Handle) :
    Option Handle :=
  symbol.filter fun handle => ¬ table.Encloses id handle.scope

theorem destroy_shown_name (table : SymbolTable) (id : ScopeId) [DecidablePred (table.Encloses id)]
    (live : table.contains id = true) (linked : table.Linked) (nested : table.Nested) (symbol : Option Handle) :
    (table.destroy id).2.shownName symbol = table.shownName (table.sever id symbol) := by
  cases symbol with
  | none => rfl
  | some handle =>
      by_cases enclosed : table.Encloses id handle.scope
      · have gone : table.sever id (some handle) = none := by simp [sever, enclosed]
        rw [gone, shownName, Option.bind_some, destroy_name_inside table id live linked handle enclosed]
        rfl
      · have kept : table.sever id (some handle) = some handle := by simp [sever, enclosed]
        rw [kept, shownName, Option.bind_some, destroy_name_outside table id live linked nested handle enclosed]
        rfl

theorem render_after_destroy (table : SymbolTable) (reached : table.Reached) (room : table.slots.size ≤ UInt32.size)
    (id : ScopeId) [DecidablePred (table.Encloses id)] (live : table.contains id = true) (tree : Tree) (layout : Layout) :
    Outline.render layout (table.destroy id).2 tree = Outline.render layout table (tree.mapSymbols (table.sever id)) ∧
    Markup.render layout (table.destroy id).2 tree = Markup.render layout table (tree.mapSymbols (table.sever id)) ∧
    ((∀ handle ∈ tree.handles, ¬ table.Encloses id handle.scope) →
      Outline.render layout (table.destroy id).2 tree = Outline.render layout table tree ∧
      Markup.render layout (table.destroy id).2 tree = Markup.render layout table tree) := by
  have names := destroy_shown_name table id live (reached_sound table reached).linked (reached_nested table reached room)
  have outline := Outline.render_renamed _ table _ names layout tree
  have markup := Markup.render_renamed _ table _ names layout tree
  refine ⟨outline, markup, fun outside => ?_⟩
  have same : tree.mapSymbols (table.sever id) = tree := by
    apply Tree.map_symbols_fixed _ rfl
    intro handle held
    simp [sever, outside handle held]
  rw [outline, markup, same]
  exact ⟨rfl, rfl⟩

def shadowed : SymbolTable := empty.after shadowing

-- Next to the given symbol there is one of the root and one that is stale.
def assigned (symbol : Option Handle) : Tree :=
  .assignment (some ⟨⟨0, 0⟩, 0⟩)
    (.binary .list .list none (.reference none symbol) (.reference none (some ⟨⟨2, 0⟩, 0⟩)))

theorem render_after_destroy_shadowing :
    shadowed.Reached ∧ shadowed.slots.size = 3 ∧ shadowed.contains ⟨2, 1⟩ = true ∧ shadowed.Encloses ⟨2, 1⟩ ⟨1, 1⟩ ∧
    shadowed.nameOf? ⟨⟨1, 1⟩, 0⟩ = some "x" ∧
    (∀ layout,
      Outline.render layout (shadowed.destroy ⟨2, 1⟩).2 (assigned (some ⟨⟨1, 1⟩, 0⟩)) =
        Outline.render layout shadowed (assigned none) ∧
      Markup.render layout (shadowed.destroy ⟨2, 1⟩).2 (assigned (some ⟨⟨1, 1⟩, 0⟩)) =
        Markup.render layout shadowed (assigned none)) ∧
    ∀ layout,
      Outline.render layout (shadowed.destroy ⟨2, 1⟩).2 (assigned (some ⟨⟨0, 0⟩, 0⟩)) =
        Outline.render layout shadowed (assigned (some ⟨⟨0, 0⟩, 0⟩)) ∧
      Markup.render layout (shadowed.destroy ⟨2, 1⟩).2 (assigned (some ⟨⟨0, 0⟩, 0⟩)) =
        Markup.render layout shadowed (assigned (some ⟨⟨0, 0⟩, 0⟩)) := by
  have reached : shadowed.Reached := ⟨shadowing, rfl⟩
  have size : shadowed.slots.size = 3 := by cbv
  have room : shadowed.slots.size ≤ UInt32.size := Nat.le_trans (Nat.le_of_eq size) (by decide)
  have live : shadowed.contains ⟨2, 1⟩ = true := by cbv
  have link : shadowed.parent? ⟨1, 1⟩ = some ⟨2, 1⟩ := by cbv
  have inner : shadowed.Encloses ⟨2, 1⟩ ⟨1, 1⟩ := .single link
  have root : ¬ shadowed.Encloses ⟨2, 1⟩ ⟨0, 0⟩ := by
    rw [chain_encloses shadowed ⟨0, 0⟩ _ (.root _ (by cbv) (by cbv))]
    decide
  have stale : ¬ shadowed.Encloses ⟨2, 1⟩ ⟨2, 0⟩ := by
    intro enclosed
    have gone : shadowed.contains ⟨2, 0⟩ = false := by cbv
    rw [encloses_live shadowed ⟨2, 1⟩ ⟨2, 0⟩ enclosed live] at gone
    cases gone
  have := Classical.decPred (shadowed.Encloses ⟨2, 1⟩)
  have severed : (assigned (some ⟨⟨1, 1⟩, 0⟩)).mapSymbols (shadowed.sever ⟨2, 1⟩) = assigned none := by
    simp [assigned, Tree.mapSymbols, sever, inner, root, stale]
  have held : (assigned (some ⟨⟨0, 0⟩, 0⟩)).handles = #[⟨⟨0, 0⟩, 0⟩, ⟨⟨0, 0⟩, 0⟩, ⟨⟨2, 0⟩, 0⟩] := rfl
  refine ⟨reached, size, live, inner, by cbv, ?_, ?_⟩
  · intro layout
    obtain ⟨outline, markup, _⟩ := render_after_destroy shadowed reached room ⟨2, 1⟩ live (assigned (some ⟨⟨1, 1⟩, 0⟩)) layout
    rw [severed] at outline markup
    exact ⟨outline, markup⟩
  · intro layout
    apply (render_after_destroy shadowed reached room ⟨2, 1⟩ live (assigned (some ⟨⟨0, 0⟩, 0⟩)) layout).2.2
    simp [held, root, stale]

section Wide

variable (count : Nat) (wide : count + 2 = UInt32.size)
include wide

theorem crowding_shows : (empty.after (crowding count)).shownName (some ⟨⟨0, 0⟩, 0⟩) = "x" := by
  rw [shownName, Option.bind_some, nameOf?, record?, crowding_scope count wide ⟨0, 0⟩ (by cbv), crowding_names]
  cbv

theorem crowding_hides : ((empty.after (crowding count)).destroy ⟨1, 0⟩).2.shownName (some ⟨⟨0, 0⟩, 0⟩) = badReference := by
  rw [shownName, Option.bind_some, ((absent_inert _ ⟨0, 0⟩ (crowding_gone count wide)).noRecord 0).2.1]
  rfl

end Wide

theorem outline_reference (layout : Layout) (table : SymbolTable) (symbol : Option Handle) (name : String)
    (shown : table.shownName symbol = name) :
    Outline.render layout table (.reference none symbol) = Page.render layout [⟨0, Text.printable ("ref " ++ name)⟩] := by
  rw [← shown]
  rfl

-- No symbol of the tree leads into the scope that is destroyed or below it, yet its line changes.
theorem render_changes_when_crowded :
    crowded.Reached ∧ crowded.contains ⟨1, 0⟩ = true ∧
      (∀ handle ∈ (Tree.reference none (some ⟨⟨0, 0⟩, 0⟩)).handles, ¬ crowded.Encloses ⟨1, 0⟩ handle.scope) ∧
      Outline.render {} crowded (.reference none (some ⟨⟨0, 0⟩, 0⟩)) = "ref x\n" ∧
      Outline.render {} (crowded.destroy ⟨1, 0⟩).2 (.reference none (some ⟨⟨0, 0⟩, 0⟩)) = "ref (bad reference)\n" := by
  have held : (Tree.reference none (some ⟨⟨0, 0⟩, 0⟩)).handles = #[⟨⟨0, 0⟩, 0⟩] := rfl
  have apart := crowding_apart (UInt32.size - 2) rfl
  unfold crowded
  refine ⟨⟨_, rfl⟩, crowding_live _ rfl _ rfl, ?_, ?_, ?_⟩
  · intro handle member
    rw [held, Array.mem_singleton] at member
    rw [member]
    exact apart
  · rw [outline_reference {} _ _ _ (crowding_shows (UInt32.size - 2) rfl)]
    decide
  · rw [outline_reference {} _ _ _ (crowding_hides (UInt32.size - 2) rfl)]
    decide

end SymbolTable

end Frontend
