import Frontend.Proofs.SymbolTable.Run

set_option autoImplicit false

namespace Frontend.SymbolTable

-- Scopes that are alike have the same place among the other scopes, and stay alike when only that changes.
structure Likeness (alike : Scope → Scope → Prop) : Prop where
  parent : ∀ a b, alike a b → b.parent = a.parent
  children : ∀ a b, alike a b → b.children = a.children
  fresh : ∀ parent, alike { parent := parent } { parent := parent }
  relinked : ∀ a b children, alike a b → alike { a with children := children } { b with children := children }

inductive SlotAlike (alike : Scope → Scope → Prop) : Option Slot → Option Slot → Prop where
  | missing : SlotAlike alike none none
  | vacant (generation : Nat) : SlotAlike alike (some ⟨generation, none⟩) (some ⟨generation, none⟩)
  | occupied (generation : Nat) (a b : Scope) (same : alike a b) :
      SlotAlike alike (some ⟨generation, some a⟩) (some ⟨generation, some b⟩)

def SlotsAlike (alike : Scope → Scope → Prop) (slots others : Array Slot) : Prop :=
  ∀ index : Nat, SlotAlike alike slots[index]? others[index]?

structure Parallel (alike : Scope → Scope → Prop) (table other : SymbolTable) : Prop where
  slots : SlotsAlike alike table.slots other.slots
  free : other.free = table.free
  live : other.live = table.live

section Slots

variable (alike : Scope → Scope → Prop) (slots others : Array Slot) (same : SlotsAlike alike slots others)
include same

theorem slots_alike_size : others.size = slots.size := by
  refine Nat.le_antisymm ?_ ?_
  · have here := same slots.size
    rw [Array.getElem?_eq_none_iff.mpr (Nat.le_refl _)] at here
    generalize twin : others[slots.size]? = found at here
    cases here
    exact Array.getElem?_eq_none_iff.mp twin
  · have here := same others.size
    rw [Array.getElem?_eq_none_iff.mpr (Nat.le_refl _ : others.size ≤ others.size)] at here
    generalize twin : slots[others.size]? = found at here
    cases here
    exact Array.getElem?_eq_none_iff.mp twin

theorem slots_alike_generation (index : Nat) : others[index]?.map Slot.generation = slots[index]?.map Slot.generation := by
  have here := same index
  generalize slots[index]? = slot at here
  generalize others[index]? = twin at here
  cases here <;> rfl

theorem slots_alike_write (index : Nat) (fresh twin : Slot) (written : SlotAlike alike (some fresh) (some twin)) :
    SlotsAlike alike (slots.setIfInBounds index fresh) (others.setIfInBounds index twin) := by
  intro position
  rw [Array.getElem?_setIfInBounds, Array.getElem?_setIfInBounds, slots_alike_size alike slots others same]
  by_cases target : index = position
  · rw [if_pos target, if_pos target]
    by_cases inside : index < slots.size
    · rw [if_pos inside, if_pos inside]
      exact written
    · rw [if_neg inside, if_neg inside]
      exact .missing
  · rw [if_neg target, if_neg target]
    exact same position

theorem slots_alike_push (fresh twin : Slot) (written : SlotAlike alike (some fresh) (some twin)) :
    SlotsAlike alike (slots.push fresh) (others.push twin) := by
  intro position
  rw [Array.getElem?_push, Array.getElem?_push, slots_alike_size alike slots others same]
  by_cases last : position = slots.size
  · rw [if_pos last, if_pos last]
    exact written
  · rw [if_neg last, if_neg last]
    exact same position

end Slots

theorem parallel_self (alike : Scope → Scope → Prop) (table : SymbolTable) (reflexive : ∀ scope, alike scope scope) :
    Parallel alike table table := by
  refine ⟨fun index => ?_, rfl, rfl⟩
  cases table.slots[index]? with
  | none => exact .missing
  | some slot =>
      obtain ⟨generation, held⟩ := slot
      cases held with
      | none => exact .vacant generation
      | some scope => exact .occupied generation scope scope (reflexive scope)

theorem parallel_mono (alike weaker : Scope → Scope → Prop) (table other : SymbolTable)
    (parallel : Parallel alike table other)
    (weaken : ∀ (index generation : Nat) (a b : Scope), table.slots[index]? = some ⟨generation, some a⟩ →
      other.slots[index]? = some ⟨generation, some b⟩ → alike a b → weaker a b) :
    Parallel weaker table other := by
  refine ⟨fun index => ?_, parallel.free, parallel.live⟩
  have here := parallel.slots index
  generalize left : table.slots[index]? = slot at here
  generalize right : other.slots[index]? = twin at here
  cases here with
  | missing => exact .missing
  | vacant generation => exact .vacant generation
  | occupied generation a b same => exact .occupied generation a b (weaken index generation a b left right same)

section Parallel

variable (alike : Scope → Scope → Prop) (table other : SymbolTable) (parallel : Parallel alike table other)
include parallel

theorem parallel_scope (id : ScopeId) : Option.Rel alike (table.scope? id) (other.scope? id) := by
  have here := parallel.slots id.slot
  unfold scope?
  generalize table.slots[id.slot]? = slot at here
  generalize other.slots[id.slot]? = twin at here
  cases here with
  | missing => exact .none
  | vacant generation =>
      dsimp only
      rw [ite_self]
      exact .none
  | occupied generation a b same =>
      dsimp only
      by_cases current : generation = id.generation
      · rw [if_pos current, if_pos current]
        exact .some same
      · rw [if_neg current, if_neg current]
        exact .none

theorem parallel_cases (id : ScopeId) :
    (table.scope? id = none ∧ other.scope? id = none) ∨
    ∃ a b, table.scope? id = some a ∧ other.scope? id = some b ∧ alike a b := by
  have here := parallel_scope alike table other parallel id
  generalize table.scope? id = scope at here
  generalize other.scope? id = twin at here
  cases here with
  | none => exact Or.inl ⟨rfl, rfl⟩
  | some same => exact Or.inr ⟨_, _, rfl, rfl, same⟩

theorem parallel_contains (id : ScopeId) : other.contains id = table.contains id := by
  rcases parallel_cases alike table other parallel id with ⟨left, right⟩ | ⟨a, b, left, right, _⟩ <;>
    simp only [contains, left, right, Option.isSome_some]

theorem parallel_modify (id : ScopeId) (change twin : Scope → Scope)
    (kept : ∀ a b, table.scope? id = some a → other.scope? id = some b → alike a b → alike (change a) (twin b)) :
    Parallel alike (table.modifyScope id change) (other.modifyScope id twin) := by
  rcases parallel_cases alike table other parallel id with ⟨left, right⟩ | ⟨a, b, left, right, same⟩
  · rw [modify_absent table id change left, modify_absent other id twin right]
    exact parallel
  · refine ⟨?_, ?_, ?_⟩
    · rw [modify_slots table id change a left, modify_slots other id twin b right]
      exact slots_alike_write alike _ _ parallel.slots id.slot _ _ (.occupied id.generation _ _ (kept a b left right same))
    · rw [(modify_frame table id change).1, (modify_frame other id twin).1]
      exact parallel.free
    · rw [(modify_frame table id change).2.1, (modify_frame other id twin).2.1]
      exact parallel.live

theorem parallel_place (scope twin : Scope) (same : alike scope twin) :
    (other.place twin).1 = (table.place scope).1 ∧ Parallel alike (table.place scope).2 (other.place twin).2 := by
  have size := slots_alike_size alike _ _ parallel.slots
  have generation := slots_alike_generation alike _ _ parallel.slots
  unfold place
  rw [parallel.free]
  cases table.free with
  | nil =>
      dsimp only
      rw [size, parallel.live]
      exact ⟨rfl, slots_alike_push alike _ _ parallel.slots _ _ (.occupied 0 _ _ same), rfl, rfl⟩
  | cons first free =>
      dsimp only
      rw [generation, parallel.live]
      exact ⟨rfl, slots_alike_write alike _ _ parallel.slots first.toNat _ _ (.occupied _ _ _ same), rfl, rfl⟩

end Parallel

-- Two sweeps that have released as many scopes each, from slots that are alike.
structure SweepAlike (alike : Scope → Scope → Prop) (sweep other : Sweep) : Prop where
  slots : SlotsAlike alike sweep.slots other.slots
  free : other.free = sweep.free
  released : other.released = sweep.released

theorem sweep_alike_release (alike : Scope → Scope → Prop) (sweep other : Sweep) (same : SweepAlike alike sweep other)
    (index : UInt32) (generation : Nat) (a b : Scope) :
    SweepAlike alike (sweep.release index ⟨generation, some a⟩) (other.release index ⟨generation, some b⟩) := by
  refine ⟨slots_alike_write alike _ _ same.slots index.toNat _ _ (.vacant _), ?_, ?_⟩
  · simp only [Sweep.release, same.free]
  · simp only [Sweep.release, same.released]

theorem sweep_alike_run (alike : Scope → Scope → Prop) (children : ∀ a b, alike a b → b.children = a.children)
    (sweep other : Sweep) (pending : List ScopeId) (same : SweepAlike alike sweep other) :
    SweepAlike alike (sweep.run pending) (other.run pending) := by
  fun_induction Sweep.run sweep pending generalizing other with
  | case1 sweep =>
      rw [Sweep.run]
      exact same
  | case2 sweep id pending found ih =>
      have here := same.slots id.slot
      rw [found] at here
      generalize twin : other.slots[id.slot]? = slot at here
      cases here
      rw [run_cons, twin]
      exact ih other same
  | case3 sweep id pending slot found vacant ih =>
      obtain ⟨generation, held⟩ := slot
      subst vacant
      have here := same.slots id.slot
      rw [found] at here
      generalize twin : other.slots[id.slot]? = slot at here
      cases here
      rw [run_cons, twin]
      exact ih other same
  | case4 sweep id pending slot found scope present ih =>
      obtain ⟨generation, held⟩ := slot
      subst present
      have here := same.slots id.slot
      rw [found] at here
      generalize twin : other.slots[id.slot]? = slot at here
      cases here with
      | occupied _ _ held close =>
          rw [run_cons, twin]
          dsimp only
          rw [children scope held close]
          exact ih _ (sweep_alike_release alike sweep other same id.index generation scope held)

section Likeness

variable (alike : Scope → Scope → Prop) (likeness : Likeness alike) (table other : SymbolTable)
  (parallel : Parallel alike table other)
include likeness parallel

theorem parallel_relink (parent : Option ScopeId) (change : List ScopeId → List ScopeId) :
    Parallel alike (table.relink parent change) (other.relink parent change) := by
  cases parent with
  | none => exact parallel
  | some outer =>
      refine parallel_modify alike table other parallel outer _ _ ?_
      intro a b _ _ same
      rw [likeness.children a b same]
      exact likeness.relinked a b _ same

theorem parallel_create (parent : Option ScopeId) :
    (other.createScope parent).1 = (table.createScope parent).1 ∧
      Parallel alike (table.createScope parent).2 (other.createScope parent).2 := by
  have contained := parallel_contains alike table other parallel
  obtain ⟨sameId, placed⟩ := parallel_place alike table other parallel _ _ (likeness.fresh parent)
  rcases create_cases table parent with ⟨outer, above, absent, failed⟩ | ⟨live, created⟩
  · rcases create_cases other parent with ⟨twin, twinAbove, _, twinFailed⟩ | ⟨twinLive, _⟩
    · have sameOuter : outer = twin := Option.some.inj (above.symm.trans twinAbove)
      rw [failed, twinFailed, sameOuter]
      exact ⟨rfl, parallel⟩
    · rw [← contained, twinLive outer above] at absent
      cases absent
  · rcases create_cases other parent with ⟨twin, twinAbove, twinAbsent, _⟩ | ⟨_, twinCreated⟩
    · rw [contained, live twin twinAbove] at twinAbsent
      cases twinAbsent
    · rw [created, twinCreated, sameId]
      refine ⟨rfl, ?_⟩
      dsimp only
      exact parallel_relink alike likeness _ _ placed parent _

theorem parallel_destroy (id : ScopeId) :
    (other.destroy id).1 = (table.destroy id).1 ∧ Parallel alike (table.destroy id).2 (other.destroy id).2 := by
  rcases parallel_cases alike table other parallel id with ⟨left, right⟩ | ⟨a, b, left, right, same⟩
  · rw [destroy, destroy, left, right]
    exact ⟨rfl, parallel⟩
  · have detached := parallel_relink alike likeness table other parallel a.parent (List.filter (· != id))
    rw [destroy, destroy, left, right]
    dsimp only
    rw [detach_relink, detach_relink, likeness.parent a b same]
    generalize table.relink a.parent (List.filter (· != id)) = start at detached
    generalize other.relink a.parent (List.filter (· != id)) = twin at detached
    have swept := sweep_alike_run alike likeness.children ⟨start.slots, start.free, 0⟩ ⟨twin.slots, twin.free, 0⟩ [id]
      ⟨detached.slots, detached.free, rfl⟩
    refine ⟨swept.released, swept.slots, swept.free, ?_⟩
    rw [detached.live, swept.released]

end Likeness

end Frontend.SymbolTable
