import Frontend.Proofs.SymbolTable.Sweep

set_option autoImplicit false

namespace Frontend

inductive Operation where
  | createScope (parent : Option ScopeId)
  | hide (id : ScopeId)
  | destroy (id : ScopeId)
  | insert (id : ScopeId) (name : String) (type : ValueType)
  | setValue (handle : Handle) (value : Double)

inductive Outcome where
  | created (result : Except TableError ScopeId)
  | hidden (done : Bool)
  | destroyed (released : Nat)
  | inserted (result : Except TableError Handle)
  | stored (done : Bool)

namespace SymbolTable

def perform (table : SymbolTable) : Operation → Outcome × SymbolTable
  | .createScope parent => (.created (table.createScope parent).1, (table.createScope parent).2)
  | .hide id => (.hidden (table.hide id).1, (table.hide id).2)
  | .destroy id => (.destroyed (table.destroy id).1, (table.destroy id).2)
  | .insert id name type => (.inserted (table.insert id name type).1, (table.insert id name type).2)
  | .setValue handle value => (.stored (table.setValue handle value).1, (table.setValue handle value).2)

def after (table : SymbolTable) : List Operation → SymbolTable
  | [] => table
  | operation :: operations => (table.perform operation).2.after operations

def outcomes (table : SymbolTable) : List Operation → List Outcome
  | [] => []
  | operation :: operations => (table.perform operation).1 :: (table.perform operation).2.outcomes operations

def Reached (table : SymbolTable) : Prop := ∃ operations, table = empty.after operations

-- The middle of a chain is destroyed, and the slots of it and of the scope inside are used a second time.
def recycling : List Operation :=
  [.createScope none, .createScope (some ⟨0, 0⟩), .createScope (some ⟨1, 0⟩), .insert ⟨1, 0⟩ "x" (.scalar .int),
    .destroy ⟨1, 0⟩, .createScope (some ⟨0, 0⟩), .createScope (some ⟨2, 1⟩), .insert ⟨1, 1⟩ "x" (.array .char)]

theorem after_append (table : SymbolTable) (first second : List Operation) :
    table.after (first ++ second) = (table.after first).after second := by
  induction first generalizing table with
  | nil => rfl
  | cons operation first ih => exact ih (table.perform operation).2

theorem empty_sound : empty.Sound := by
  refine ⟨⟨rfl, List.nodup_nil, ?_⟩, ⟨?_, ?_, ⟨fun _ => 0, ?_⟩⟩, ⟨List.nodup_nil, ?_⟩⟩ <;>
    simp [empty, parent?, children, scope?]

theorem perform_sound (table : SymbolTable) (operation : Operation) (sound : table.Sound) :
    (table.perform operation).2.Sound := by
  cases operation with
  | createScope parent => exact create_sound table parent sound
  | hide id => exact hide_sound table id sound
  | destroy id => exact destroy_sound table id sound
  | insert id name type => exact insert_sound table id name type sound
  | setValue handle value => exact set_value_sound table handle value sound

theorem after_sound (table : SymbolTable) (operations : List Operation) (sound : table.Sound) :
    (table.after operations).Sound := by
  induction operations generalizing table with
  | nil => exact sound
  | cons operation operations ih => exact ih (table.perform operation).2 (perform_sound table operation sound)

theorem reached_sound (table : SymbolTable) (reached : table.Reached) : table.Sound := by
  obtain ⟨operations, rfl⟩ := reached
  exact after_sound empty operations empty_sound

theorem reached_perform (table : SymbolTable) (reached : table.Reached) (operation : Operation) :
    (table.perform operation).2.Reached := by
  obtain ⟨operations, rfl⟩ := reached
  refine ⟨operations ++ [operation], ?_⟩
  rw [after_append]
  rfl

def generationAt (table : SymbolTable) (index : Nat) : Option Nat := table.slots[index]?.map Slot.generation

theorem contains_iff_occupied (table : SymbolTable) (id : ScopeId) :
    table.contains id = true ↔ table.generationAt id.slot = some id.generation ∧ ¬ table.Vacant id.slot := by
  rw [contains_iff, generationAt, Vacant]
  cases found : table.slots[id.slot]? with
  | none => simp [scope_iff_slot, found]
  | some slot =>
      obtain ⟨generation, held⟩ := slot
      cases held <;> simp [scope_iff_slot, found]

-- All that one operation can do to one slot: leave it as it is, give it to a new scope, or take it from
-- a scope that a destruction comes to. What holds of the slots of every run follows from these cases.
inductive SlotChange (table : SymbolTable) (operation : Operation) (next : SymbolTable) (index : Nat) : Prop where
  | kept (generation : next.generationAt index = table.generationAt index)
      (vacant : next.Vacant index ↔ table.Vacant index) (free : index ∈ next.freeSlots ↔ index ∈ table.freeSlots)
  | taken (generation : Nat)
      (before : table.generationAt index = none ∧ generation = 0 ∨
        table.generationAt index = some generation ∧ table.Vacant index ∧ index ∈ table.freeSlots)
      (after : next.generationAt index = some generation) (occupied : ¬ next.Vacant index) (used : index ∉ next.freeSlots)
  | released (id top : ScopeId) (here : index = id.slot) (destruction : operation = .destroy top)
      (before : table.contains id = true)
      (after : next.generationAt index = some (Slot.vacate ⟨id.generation, none⟩).generation)
      (vacant : next.Vacant index) (freed : index ∈ next.freeSlots ↔ id.generation < Slot.lastGeneration)

theorem modify_change (table : SymbolTable) (operation : Operation) (id : ScopeId) (change : Scope → Scope) (index : Nat) :
    SlotChange table operation (table.modifyScope id change) index := by
  obtain ⟨sameFree, _, _⟩ := modify_frame table id change
  exact .kept (modify_generation table id change index) (modify_vacant table id change index)
    (by rw [freeSlots, sameFree, freeSlots])

theorem place_change (table : SymbolTable) (operation : Operation) (parent : Option ScopeId)
    (change : List ScopeId → List ScopeId) (allocated : table.Allocated) (index : Nat) :
    SlotChange table operation ((table.place { parent := parent }).2.relink parent change) index := by
  have vacancies := allocated.freeVacant
  obtain ⟨sameFree, _, _⟩ := relink_frame (table.place { parent := parent }).2 parent change
  have slots := place_slot table { parent := parent } vacancies index
  by_cases same : index = table.nextSlot
  · rw [if_pos same] at slots
    refine .taken (table.place { parent := parent }).1.generation ?_ ?_ ?_ ?_
    · rw [same]
      rcases place_cases table { parent := parent } vacancies with
        ⟨_, next, placed⟩ | ⟨first, free, generation, available, next, empty, placed⟩
      · refine Or.inl ?_
        rw [placed, next]
        simp [generationAt]
      · refine Or.inr ?_
        rw [placed, next, freeSlots, available]
        exact ⟨by simp [generationAt, empty], ⟨generation, empty⟩, List.mem_cons_self⟩
    · rw [generationAt, relink_generation, slots]
      rfl
    · rw [relink_vacant, Vacant, slots]
      simp
    · rw [freeSlots, sameFree, same]
      intro member
      obtain ⟨taken, free, isNext⟩ := List.mem_map.mp member
      have vacant := (allocated_place table { parent := parent } allocated).freeVacant taken free
      rw [place_vacant table _ vacancies] at vacant
      exact vacant.2 isNext
  · rw [if_neg same] at slots
    refine .kept ?_ ?_ ?_
    · rw [generationAt, relink_generation, slots]
      rfl
    · rw [relink_vacant, place_vacant table _ vacancies]
      exact and_iff_left same
    · rw [freeSlots, sameFree]
      rcases place_cases table { parent := parent } vacancies with
        ⟨_, _, placed⟩ | ⟨first, free, generation, available, next, _, placed⟩
      · rw [placed]
        rfl
      · rw [next] at same
        rw [placed, freeSlots, available, List.map_cons, List.mem_cons]
        exact (or_iff_right same).symm

theorem destroy_change (table : SymbolTable) (id : ScopeId) (live : table.contains id = true) (allocated : table.Allocated)
    (index : Nat) : SlotChange table (.destroy id) (table.destroy id).2 index := by
  obtain ⟨order, swept, _, _⟩ := destroy_swept table id live
  obtain ⟨sameFree, _, _⟩ := relink_frame table (table.parent? id) (List.filter (· != id))
  have present := released_live table id _ order swept
  have freed : ∀ index, index ∈ (table.destroy id).2.freeSlots ↔
      (∃ other ∈ order, other.generation < Slot.lastGeneration ∧ other.slot = index) ∨ index ∈ table.freeSlots := by
    intro index
    rw [freeSlots, swept.freed, detached, sameFree, List.map_append, List.map_reverse, List.map_map, List.mem_append,
      List.mem_reverse, List.mem_map]
    simp only [List.mem_filter, decide_eq_true_eq, and_assoc, Function.comp_apply, ScopeId.slot, freeSlots]
  by_cases reached : ∃ other ∈ order, other.slot = index
  · obtain ⟨other, member, rfl⟩ := reached
    have after := swept.vacated other member
    refine .released other id rfl rfl (present other member) ?_ ⟨_, after⟩ ?_
    · rw [generationAt, after]
      rfl
    · rw [freed]
      constructor
      · rintro (⟨twin, twinMember, early, sameSlot⟩ | old)
        · rw [← live_same_slot table twin other (present twin twinMember) (present other member) sameSlot]
          exact early
        · obtain ⟨free, isFree, same⟩ := List.mem_map.mp old
          have occupied := ((contains_iff_occupied table other).mp (present other member)).2
          exact absurd (same ▸ allocated.freeVacant free isFree) occupied
      · intro early
        exact Or.inl ⟨other, member, early, rfl⟩
  · have slots := swept.kept index (fun other member same => reached ⟨other, member, same⟩)
    refine .kept ?_ ?_ ?_
    · rw [generationAt, slots]
      exact relink_generation table _ _ index
    · rw [Vacant, slots]
      exact relink_vacant table _ _ index
    · rw [freed]
      refine or_iff_right ?_
      rintro ⟨other, member, _, same⟩
      exact reached ⟨other, member, same⟩

theorem perform_change (table : SymbolTable) (operation : Operation) (sound : table.Sound) (index : Nat) :
    SlotChange table operation (table.perform operation).2 index := by
  have unchanged : SlotChange table operation table index := .kept rfl Iff.rfl Iff.rfl
  cases operation with
  | createScope parent =>
      rw [perform]
      rcases create_cases table parent with ⟨outer, _, _, failed⟩ | ⟨_, created⟩
      · rw [failed]
        exact unchanged
      · rw [created]
        dsimp only
        exact place_change table _ parent _ sound.allocated index
  | hide id => exact modify_change table _ id _ index
  | destroy id =>
      rw [perform]
      cases live : table.contains id with
      | false =>
          rw [destroy_absent table id live]
          exact unchanged
      | true => exact destroy_change table id live sound.allocated index
  | insert id name type =>
      rw [perform]
      rcases insert_next table sound.named id name type with kept | written
      · rw [kept]
        exact unchanged
      · rw [written]
        have changed := modify_change { table with names := (table.names.intern name).2 } (.insert id name type) id
          (declare (table.names.intern name).1 type) index
        cases changed with
        | kept generation vacant free => exact .kept generation vacant free
        | taken generation before after occupied used => exact .taken generation before after occupied used
        | released _ _ _ destruction => cases destruction
  | setValue handle value => exact modify_change table _ handle.scope _ index

end SymbolTable

end Frontend
