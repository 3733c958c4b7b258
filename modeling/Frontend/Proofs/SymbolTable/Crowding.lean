import Frontend.Proofs.SymbolTable.Arena

set_option autoImplicit false

namespace Frontend.SymbolTable

-- What happens once there are as many slots as an index can tell apart. A creation still succeeds then, but
-- the id that it gives out leads to another slot, and the new scope itself cannot be read by any id.
section Crowded

variable (table : SymbolTable) (sound : table.Sound) (full : ¬ table.HasRoom)
include sound full

theorem place_crowded (scope : Scope) :
    (table.place scope).1 = ⟨UInt32.ofNat table.slots.size, 0⟩ ∧
      ∀ id, (table.place scope).2.scope? id = table.scope? id := by
  refine ⟨by simp only [place, free_without_room table full], fun id => ?_⟩
  rw [place_scope table scope sound.allocated.freeVacant, if_neg (fun fresh => full fresh.1)]

theorem create_crowded (parent : Option ScopeId) (live : ∀ outer, parent = some outer → table.contains outer = true) :
    (table.createScope parent).1 = .ok ⟨UInt32.ofNat table.slots.size, 0⟩ ∧
      ∀ id, (table.createScope parent).2.scope? id =
        (table.relink parent (· ++ [⟨UInt32.ofNat table.slots.size, 0⟩])).scope? id := by
  rcases create_cases table parent with ⟨outer, above, absent, _⟩ | ⟨_, created⟩
  · rw [live outer above] at absent
    cases absent
  · obtain ⟨made, kept⟩ := place_crowded table sound full { parent := parent }
    rw [created]
    refine ⟨by rw [made], fun id => ?_⟩
    dsimp only
    rw [relink_scope, relink_scope, kept, made]

-- The parent lists whichever scope has that id, and takes it along when it goes.
theorem crowded_stranger_met (outer : ScopeId) (live : table.contains outer = true)
    (stranger : table.contains ⟨UInt32.ofNat table.slots.size, 0⟩ = true) :
    (table.createScope (some outer)).2.Meets [outer] ⟨UInt32.ofNat table.slots.size, 0⟩ := by
  have above : ∀ other, some outer = some other → table.contains other = true := fun other same =>
    Option.some.inj same ▸ live
  obtain ⟨_, scopes⟩ := create_crowded table sound full (some outer) above
  have contained : ∀ id, (table.createScope (some outer)).2.contains id = table.contains id := by
    intro id
    rw [contains, scopes]
    exact relink_contains table _ _ id
  have listed : ⟨UInt32.ofNat table.slots.size, 0⟩ ∈ (table.createScope (some outer)).2.children outer := by
    rw [children, scopes]
    change _ ∈ (table.relink (some outer) _).children outer
    rw [relink_children table _ _ above, if_pos rfl]
    exact List.mem_append_right _ List.mem_cons_self
  have start : (table.createScope (some outer)).2.Meets [outer] outer :=
    .waiting outer outer List.mem_cons_self rfl ((contained outer).trans live)
  exact .nested outer _ _ start listed rfl ((contained _).trans stranger)

end Crowded

-- Creations of roots, when no slot is free: each adds a slot, and the slots before stay as they are.
theorem after_roots (table : SymbolTable) (noneFree : table.free = []) (count : Nat) :
    (table.after (List.replicate count (.createScope none))).free = [] ∧
    (table.after (List.replicate count (.createScope none))).names = table.names ∧
    (table.after (List.replicate count (.createScope none))).slots.size = table.slots.size + count ∧
    ∀ id, table.contains id = true →
      (table.after (List.replicate count (.createScope none))).scope? id = table.scope? id := by
  induction count generalizing table with
  | zero => exact ⟨noneFree, rfl, rfl, fun _ _ => rfl⟩
  | succ count ih =>
      have step : (table.perform (.createScope none)).2 =
          { table with slots := table.slots.push ⟨0, some { parent := none }⟩, live := table.live + 1 } := by
        simp [perform, createScope, place, noneFree]
      obtain ⟨stillNone, sameNames, size, kept⟩ := ih (table.perform (.createScope none)).2 (by rw [step]; exact noneFree)
      rw [List.replicate_succ, after]
      refine ⟨stillNone, ?_, ?_, ?_⟩
      · rw [sameNames, step]
      · rw [size, step, Array.size_push]
        omega
      · intro id live
        obtain ⟨scope, read⟩ := (contains_iff table id).mp live
        have slot := (scope_iff_slot table id scope).mp read
        have grown : (table.perform (.createScope none)).2.scope? id = some scope := by
          rw [scope_iff_slot, step, Array.getElem?_push_lt, ← Array.getElem?_eq_getElem, slot]
          exact (Array.getElem?_eq_some_iff.mp slot).1
        rw [kept id (contains_of_scope _ id scope grown), grown, read]

-- A run that comes to that point with a name declared in the scope of the first slot. The last creation is under
-- the second scope, which lists the first from then on. The number of roots in between stays a variable, so that
-- no proof runs through them.
def seeds : List Operation :=
  [.createScope none, .insert ⟨0, 0⟩ "x" (.scalar .int), .createScope none]

def crowding (count : Nat) : List Operation :=
  seeds ++ List.replicate count (.createScope none) ++ [.createScope (some ⟨1, 0⟩)]

section Crowding

variable (count : Nat)

def filled : SymbolTable := empty.after (seeds ++ List.replicate count (.createScope none))

theorem filled_after_seeds : filled count = (empty.after seeds).after (List.replicate count (.createScope none)) :=
  after_append empty seeds _

theorem filled_sound : (filled count).Sound := after_sound empty _ empty_sound

theorem filled_scope (id : ScopeId) (seeded : (empty.after seeds).contains id = true) :
    (filled count).scope? id = (empty.after seeds).scope? id := by
  rw [filled_after_seeds]
  exact (after_roots (empty.after seeds) rfl count).2.2.2 id seeded

theorem filled_names : (filled count).names = (empty.after seeds).names := by
  rw [filled_after_seeds]
  exact (after_roots (empty.after seeds) rfl count).2.1

theorem filled_size : (filled count).slots.size = count + 2 := by
  have two : (empty.after seeds).slots.size = 2 := rfl
  rw [filled_after_seeds, (after_roots (empty.after seeds) rfl count).2.2.1, two, Nat.add_comm]

theorem filled_full (wide : count + 2 = UInt32.size) : ¬ (filled count).HasRoom := by
  have noneFree := (after_roots (empty.after seeds) rfl count).1
  rw [← filled_after_seeds] at noneFree
  rw [HasRoom, nextSlot, noneFree, filled_size, wide]
  exact Nat.lt_irrefl _

theorem filled_wraps (wide : count + 2 = UInt32.size) :
    (⟨UInt32.ofNat (filled count).slots.size, 0⟩ : ScopeId) = ⟨0, 0⟩ := by
  rw [filled_size, wide, UInt32.ofNat_size]

theorem filled_live (id : ScopeId) (seeded : (empty.after seeds).contains id = true) : (filled count).contains id = true := by
  rw [contains, filled_scope count id seeded]
  exact seeded

end Crowding

theorem crowding_after (count : Nat) :
    empty.after (crowding count) = ((filled count).createScope (some ⟨1, 0⟩)).2 := by
  rw [crowding, after_append, ← filled]
  rfl

section Wide

variable (count : Nat) (wide : count + 2 = UInt32.size)
include wide

theorem crowding_scope (id : ScopeId) (seeded : (empty.after seeds).contains id = true) :
    (empty.after (crowding count)).scope? id =
      ((empty.after seeds).relink (some ⟨1, 0⟩) (· ++ [⟨0, 0⟩])).scope? id := by
  have live : ∀ outer, some ⟨1, 0⟩ = some outer → (filled count).contains outer = true := fun outer same =>
    Option.some.inj same ▸ filled_live count ⟨1, 0⟩ rfl
  rw [crowding_after, (create_crowded _ (filled_sound count) (filled_full count wide) (some ⟨1, 0⟩) live).2 id,
    filled_wraps count wide, relink_scope, relink_scope, filled_scope count id seeded]

theorem crowding_live (id : ScopeId) (seeded : (empty.after seeds).contains id = true) :
    (empty.after (crowding count)).contains id = true := by
  rw [contains, crowding_scope count wide id seeded]
  exact (relink_contains _ _ _ id).trans seeded

theorem crowding_met : (empty.after (crowding count)).Meets [⟨1, 0⟩] ⟨0, 0⟩ := by
  have met := crowded_stranger_met (filled count) (filled_sound count) (filled_full count wide) ⟨1, 0⟩
    (filled_live count _ rfl) (by rw [filled_wraps count wide]; exact filled_live count _ rfl)
  rw [filled_wraps count wide, ← crowding_after] at met
  exact met

theorem crowding_apart : ¬ (empty.after (crowding count)).Encloses ⟨1, 0⟩ ⟨0, 0⟩ := by
  have root : (empty.after (crowding count)).parent? ⟨0, 0⟩ = none := by
    rw [parent?, crowding_scope count wide _ rfl]
    rfl
  intro enclosed
  rcases enclosed.cases_head with same | ⟨outer, link, _⟩
  · exact absurd same (by decide)
  · rw [ChildOf, root] at link
    cases link

theorem crowding_gone : ((empty.after (crowding count)).destroy ⟨1, 0⟩).2.contains ⟨0, 0⟩ = false := by
  have linked := (after_sound empty (crowding count) empty_sound).linked
  rw [not_contains_iff]
  exact destroy_met _ ⟨1, 0⟩ (crowding_live count wide _ rfl) linked ⟨0, 0⟩ (crowding_met count wide)

omit wide in
theorem crowding_names : (empty.after (crowding count)).names = (empty.after seeds).names := by
  rw [crowding_after, create_names, filled_names]

end Wide

-- Far too large to be computed.
noncomputable def crowded : SymbolTable := empty.after (crowding (UInt32.size - 2))

end Frontend.SymbolTable
