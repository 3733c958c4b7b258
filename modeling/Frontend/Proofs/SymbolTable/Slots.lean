import Frontend.SymbolTable.Names
import Frontend.SymbolTable.Scopes

set_option autoImplicit false

namespace Frontend

theorem ScopeId.eq_of_slot (a b : ScopeId) (sameSlot : a.slot = b.slot) (sameGeneration : a.generation = b.generation) :
    a = b := by
  rw [ScopeId.mk.injEq]
  exact ⟨UInt32.toNat_inj.mp sameSlot, sameGeneration⟩

namespace SymbolTable

def Vacant (table : SymbolTable) (index : Nat) : Prop :=
  ∃ generation, table.slots[index]? = some ⟨generation, none⟩

theorem scope_iff_slot (table : SymbolTable) (id : ScopeId) (scope : Scope) :
    table.scope? id = some scope ↔ table.slots[id.slot]? = some ⟨id.generation, some scope⟩ := by
  unfold scope?
  cases found : table.slots[id.slot]? with
  | none => simp
  | some slot =>
      obtain ⟨generation, held⟩ := slot
      by_cases same : generation = id.generation
      · simp [same]
      · simp [same]

theorem contains_iff (table : SymbolTable) (id : ScopeId) :
    table.contains id = true ↔ ∃ scope, table.scope? id = some scope := by
  rw [contains, Option.isSome_iff_exists]

theorem not_contains_iff (table : SymbolTable) (id : ScopeId) :
    table.contains id = false ↔ table.scope? id = none := by
  simp [contains]

theorem parent_iff (table : SymbolTable) (id outer : ScopeId) :
    table.parent? id = some outer ↔ ∃ scope, table.scope? id = some scope ∧ scope.parent = some outer := by
  rw [parent?, Option.bind_eq_some_iff]

theorem slot_holds_one (table : SymbolTable) (a b : ScopeId) (scope other : Scope)
    (left : table.scope? a = some scope) (right : table.scope? b = some other) (same : a.slot = b.slot) : a = b := by
  rw [scope_iff_slot] at left right
  rw [same, right] at left
  have equal : b.generation = a.generation := by simpa using congrArg (Option.map Slot.generation) left
  exact ScopeId.eq_of_slot a b same equal.symm

theorem vacant_holds_none (table : SymbolTable) (id : ScopeId) (vacant : table.Vacant id.slot) :
    table.scope? id = none := by
  obtain ⟨generation, empty⟩ := vacant
  cases read : table.scope? id with
  | none => rfl
  | some scope =>
      rw [scope_iff_slot, empty] at read
      simp at read

theorem scope_of_slots (table next : SymbolTable) (id : ScopeId) (same : next.slots[id.slot]? = table.slots[id.slot]?) :
    next.scope? id = table.scope? id := by
  simp only [scope?, same]

-- Every change of the table writes one slot. The four lemmas below say what such a write does to the
-- scopes that can be read, to the generations, to the vacant slots and to the count of occupied ones.
section Write

variable (table next : SymbolTable) (index : Nat) (old fresh : Slot) (found : table.slots[index]? = some old)
  (written : next.slots = table.slots.setIfInBounds index fresh)
include found written

theorem write_slot (other : Nat) :
    next.slots[other]? = if other = index then some fresh else table.slots[other]? := by
  have bound := (Array.getElem?_eq_some_iff.mp found).1
  rw [written, Array.getElem?_setIfInBounds]
  by_cases same : other = index
  · rw [if_pos same.symm, if_pos same, if_pos (same ▸ bound)]
  · rw [if_neg (Ne.symm same), if_neg same]

theorem write_scope (id : ScopeId) :
    next.scope? id =
      if id.slot = index then if fresh.generation = id.generation then fresh.scope else none
      else table.scope? id := by
  unfold scope?
  rw [write_slot table next index old fresh found written]
  by_cases same : id.slot = index
  · simp only [if_pos same]
  · simp only [if_neg same]

theorem write_vacant (other : Nat) :
    next.Vacant other ↔ if other = index then fresh.scope = none else table.Vacant other := by
  unfold Vacant
  rw [write_slot table next index old fresh found written]
  by_cases same : other = index
  · obtain ⟨generation, scope⟩ := fresh
    simp [if_pos same]
  · simp [if_neg same]

theorem write_occupied :
    occupied next.slots + old.scope.isSome.toNat = occupied table.slots + fresh.scope.isSome.toNat := by
  obtain ⟨bound, same⟩ := Array.getElem?_eq_some_iff.mp found
  have counted : old.scope.isSome = true → 0 < occupied table.slots := by
    intro held
    refine Array.countP_pos_iff.mpr ⟨old, ?_, held⟩
    rw [← same]
    exact Array.getElem_mem bound
  rw [written]
  simp only [occupied, Array.setIfInBounds, bound, dif_pos, Array.countP_set, same] at counted ⊢
  cases held : old.scope.isSome with
  | false => cases fresh.scope.isSome <;> simp
  | true =>
      have positive := counted held
      cases fresh.scope.isSome <;> simp <;> omega

end Write

section Modify

variable (table : SymbolTable) (id : ScopeId) (change : Scope → Scope)

theorem modify_absent (absent : table.scope? id = none) : table.modifyScope id change = table := by
  rw [modifyScope, absent]

theorem modify_present (scope : Scope) (read : table.scope? id = some scope) :
    table.modifyScope id change =
      { table with slots := table.slots.setIfInBounds id.slot ⟨id.generation, some (change scope)⟩ } := by
  rw [modifyScope, read]

theorem modify_slots (scope : Scope) (read : table.scope? id = some scope) :
    (table.modifyScope id change).slots =
      table.slots.setIfInBounds id.slot ⟨id.generation, some (change scope)⟩ := by
  rw [modify_present table id change scope read]

theorem modify_frame : (table.modifyScope id change).free = table.free ∧
    (table.modifyScope id change).live = table.live ∧ (table.modifyScope id change).names = table.names := by
  cases read : table.scope? id with
  | none =>
      rw [modify_absent table id change read]
      exact ⟨rfl, rfl, rfl⟩
  | some scope =>
      rw [modify_present table id change scope read]
      exact ⟨rfl, rfl, rfl⟩

theorem modify_scope (other : ScopeId) :
    (table.modifyScope id change).scope? other =
      if other = id then (table.scope? id).map change else table.scope? other := by
  cases read : table.scope? id with
  | none =>
      rw [modify_absent table id change read]
      by_cases same : other = id
      · rw [if_pos same, same, read]
        rfl
      · rw [if_neg same]
  | some scope =>
      rw [write_scope table _ _ _ _ ((scope_iff_slot table id scope).mp read) (modify_slots table id change scope read)]
      by_cases same : other = id
      · simp [same]
      · rw [if_neg same]
        by_cases sameSlot : other.slot = id.slot
        · have different : id.generation ≠ other.generation := fun equal =>
            same (ScopeId.eq_of_slot other id sameSlot equal.symm)
          rw [if_pos sameSlot, if_neg different]
          cases present : table.scope? other with
          | none => rfl
          | some held => exact absurd (slot_holds_one table other id held scope present read sameSlot) same
        · rw [if_neg sameSlot]

theorem modify_generation (index : Nat) :
    (table.modifyScope id change).slots[index]?.map Slot.generation = table.slots[index]?.map Slot.generation := by
  cases read : table.scope? id with
  | none => rw [modify_absent table id change read]
  | some scope =>
      have slot := (scope_iff_slot table id scope).mp read
      rw [write_slot table _ _ _ _ slot (modify_slots table id change scope read)]
      by_cases same : index = id.slot
      · rw [if_pos same, same, slot]
        rfl
      · rw [if_neg same]

theorem modify_vacant (index : Nat) :
    (table.modifyScope id change).Vacant index ↔ table.Vacant index := by
  cases read : table.scope? id with
  | none => rw [modify_absent table id change read]
  | some scope =>
      have slot := (scope_iff_slot table id scope).mp read
      rw [write_vacant table _ _ _ _ slot (modify_slots table id change scope read)]
      by_cases same : index = id.slot
      · simp [same, Vacant, slot]
      · rw [if_neg same]

theorem modify_occupied : occupied (table.modifyScope id change).slots = occupied table.slots := by
  cases read : table.scope? id with
  | none => rw [modify_absent table id change read]
  | some scope =>
      have counts := write_occupied table _ _ _ _ ((scope_iff_slot table id scope).mp read)
        (modify_slots table id change scope read)
      simpa using counts

end Modify

-- The slot that the next scope goes into: the first free one, or else a slot of its own at the end.
def nextSlot (table : SymbolTable) : Nat :=
  match table.free with
  | [] => table.slots.size
  | index :: _ => index.toNat

-- Whether an id can name the next slot. A scope in a slot past the last index can never be read.
def HasRoom (table : SymbolTable) : Prop := table.nextSlot < UInt32.size

instance (table : SymbolTable) : Decidable table.HasRoom := Nat.decLt _ _

theorem free_without_room (table : SymbolTable) (full : ¬ table.HasRoom) : table.free = [] := by
  cases available : table.free with
  | nil => rfl
  | cons first free =>
      rw [HasRoom, nextSlot, available] at full
      exact absurd (UInt32.toNat_lt_size first) full

-- No id of the slot that is taken next can be read.
theorem next_absent (table : SymbolTable) (vacancies : ∀ index ∈ table.free, table.Vacant index.toNat) (id : ScopeId)
    (same : id.slot = table.nextSlot) : table.scope? id = none := by
  cases available : table.free with
  | nil => simp [scope?, same, nextSlot, available]
  | cons first free =>
      apply vacant_holds_none
      rw [same, nextSlot, available]
      exact vacancies first (by simp [available])

section Place

variable (table : SymbolTable) (scope : Scope) (vacancies : ∀ index ∈ table.free, table.Vacant index.toNat)
include vacancies

theorem place_cases :
    (table.free = [] ∧ table.nextSlot = table.slots.size ∧ table.place scope = (⟨UInt32.ofNat table.slots.size, 0⟩,
      { table with slots := table.slots.push ⟨0, some scope⟩, live := table.live + 1 })) ∨
    ∃ first free generation, table.free = first :: free ∧ table.nextSlot = first.toNat ∧
      table.slots[first.toNat]? = some ⟨generation, none⟩ ∧
      table.place scope = (⟨first, generation⟩,
        { table with
          slots := table.slots.setIfInBounds first.toNat ⟨generation, some scope⟩
          free := free
          live := table.live + 1 }) := by
  cases available : table.free with
  | nil =>
      refine Or.inl ⟨rfl, ?_, ?_⟩
      · simp only [nextSlot, available]
      · simp only [place, available]
  | cons first free =>
      obtain ⟨generation, empty⟩ := vacancies first (by simp [available])
      refine Or.inr ⟨first, free, generation, rfl, ?_, empty, ?_⟩
      · simp only [nextSlot, available]
      · simp only [place, available, empty, Option.map_some, Option.getD_some]

theorem place_index : (table.place scope).1.index = UInt32.ofNat table.nextSlot := by
  rcases place_cases table scope vacancies with ⟨-, next, placed⟩ | ⟨first, free, generation, -, next, -, placed⟩
  · rw [placed, next]
  · rw [placed, next, UInt32.ofNat_toNat]

theorem place_at_next (room : table.HasRoom) : (table.place scope).1.slot = table.nextSlot := by
  rw [ScopeId.slot, place_index table scope vacancies, UInt32.toNat_ofNat_of_lt' room]

theorem place_slot (index : Nat) :
    (table.place scope).2.slots[index]? =
      if index = table.nextSlot then some ⟨(table.place scope).1.generation, some scope⟩ else table.slots[index]? := by
  rcases place_cases table scope vacancies with ⟨-, next, placed⟩ | ⟨first, free, generation, -, next, empty, placed⟩
  · rw [placed, next]
    exact Array.getElem?_push
  · rw [write_slot table (table.place scope).2 first.toNat _ ⟨generation, some scope⟩ empty (by rw [placed]), placed, next]

theorem place_scope (id : ScopeId) :
    (table.place scope).2.scope? id =
      if table.HasRoom ∧ id = (table.place scope).1 then some scope else table.scope? id := by
  have read : (table.place scope).2.scope? id =
      if id.slot = table.nextSlot then
        if (table.place scope).1.generation = id.generation then some scope else none
      else table.scope? id := by
    unfold scope?
    rw [place_slot table scope vacancies]
    by_cases same : id.slot = table.nextSlot
    · simp only [if_pos same]
    · simp only [if_neg same]
  rw [read]
  by_cases sameSlot : id.slot = table.nextSlot
  · have room : table.HasRoom := by
      rw [HasRoom, ← sameSlot]
      exact UInt32.toNat_lt_size id.index
    rw [if_pos sameSlot, next_absent table vacancies id sameSlot]
    by_cases sameGeneration : (table.place scope).1.generation = id.generation
    · have same := ScopeId.eq_of_slot id (table.place scope).1
        (sameSlot.trans (place_at_next table scope vacancies room).symm) sameGeneration.symm
      rw [if_pos sameGeneration, if_pos ⟨room, same⟩]
    · have different : id ≠ (table.place scope).1 := fun same => sameGeneration (by rw [same])
      rw [if_neg sameGeneration, if_neg (fun both => different both.2)]
  · rw [if_neg sameSlot, if_neg]
    rintro ⟨room, rfl⟩
    exact sameSlot (place_at_next table scope vacancies room)

theorem place_keeps (id : ScopeId) (old : Scope) (read : table.scope? id = some old) :
    (table.place scope).2.scope? id = some old := by
  rw [place_scope table scope vacancies, if_neg, read]
  rintro ⟨room, rfl⟩
  rw [next_absent table vacancies _ (place_at_next table scope vacancies room)] at read
  cases read

theorem place_vacant (index : Nat) :
    (table.place scope).2.Vacant index ↔ table.Vacant index ∧ index ≠ table.nextSlot := by
  unfold Vacant
  rw [place_slot table scope vacancies]
  by_cases same : index = table.nextSlot
  · simp [same]
  · simp [same]

theorem place_occupied : occupied (table.place scope).2.slots = occupied table.slots + 1 := by
  rcases place_cases table scope vacancies with ⟨-, -, placed⟩ | ⟨first, free, generation, -, -, empty, placed⟩
  · rw [placed]
    simp [occupied]
  · have counts := write_occupied table (table.place scope).2 first.toNat _ ⟨generation, some scope⟩ empty (by rw [placed])
    simpa using counts

theorem place_frame : (table.place scope).2.names = table.names ∧ (table.place scope).2.live = table.live + 1 := by
  rcases place_cases table scope vacancies with ⟨-, -, placed⟩ | ⟨first, free, generation, -, -, -, placed⟩ <;> rw [placed] <;>
    exact ⟨rfl, rfl⟩

theorem place_size_le : table.slots.size ≤ (table.place scope).2.slots.size := by
  rcases place_cases table scope vacancies with ⟨-, -, placed⟩ | ⟨first, free, generation, -, -, -, placed⟩
  · rw [placed]
    simp
  · rw [placed]
    simp

theorem room_of_size (small : (table.place scope).2.slots.size ≤ UInt32.size) : table.HasRoom := by
  rw [HasRoom]
  rcases place_cases table scope vacancies with ⟨-, next, placed⟩ | ⟨first, free, generation, -, next, -, -⟩
  · rw [placed, Array.size_push] at small
    rw [next]
    exact small
  · rw [next]
    exact UInt32.toNat_lt_size first

end Place

end SymbolTable

end Frontend
