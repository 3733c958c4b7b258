import Frontend.Proofs.SymbolTable.Ancestry
import Frontend.Proofs.SymbolTable.Growth

set_option autoImplicit false
set_option linter.unusedVariables false

namespace Frontend

namespace SymbolTable

-- The table in the middle of a sweep. The live counter is brought down with each release, where the
-- sweep itself only counts and subtracts at the end.
def resume (table : SymbolTable) (sweep : Sweep) : SymbolTable :=
  { table with slots := sweep.slots, free := sweep.free, live := table.live - sweep.released }

section Release

variable (table : SymbolTable) (sweep : Sweep) (id : ScopeId) (scope : Scope)
  (read : (table.resume sweep).scope? id = some scope)
include read

theorem release_slot (index : Nat) :
    (table.resume (sweep.release id.index ⟨id.generation, some scope⟩)).slots[index]? =
      if index = id.slot then some (Slot.vacate ⟨id.generation, none⟩) else (table.resume sweep).slots[index]? :=
  write_slot (table.resume sweep) _ id.slot _ _ ((scope_iff_slot _ id scope).mp read) rfl index

theorem release_scope (other : ScopeId) :
    (table.resume (sweep.release id.index ⟨id.generation, some scope⟩)).scope? other =
      if other = id then none else (table.resume sweep).scope? other := by
  have slot := (scope_iff_slot _ id scope).mp read
  have written := write_scope (table.resume sweep)
    (table.resume (sweep.release id.index ⟨id.generation, some scope⟩)) id.slot _
    (Slot.vacate ⟨id.generation, some scope⟩) slot rfl other
  rw [written]
  by_cases same : other = id
  · rw [if_pos same, if_pos (congrArg ScopeId.slot same)]
    exact ite_self none
  · rw [if_neg same]
    by_cases sameSlot : other.slot = id.slot
    · rw [if_pos sameSlot]
      cases before : (table.resume sweep).scope? other with
      | none => exact ite_self none
      | some held => exact absurd (slot_holds_one _ other id held scope before read sameSlot) same
    · rw [if_neg sameSlot]

theorem release_contains (other : ScopeId) :
    (table.resume (sweep.release id.index ⟨id.generation, some scope⟩)).contains other = true ↔
      (table.resume sweep).contains other = true ∧ other ≠ id := by
  rw [contains, release_scope table sweep id scope read]
  by_cases same : other = id
  · simp [same]
  · simp [same, contains]

theorem release_children (other : ScopeId) :
    (table.resume (sweep.release id.index ⟨id.generation, some scope⟩)).children other =
      if other = id then [] else (table.resume sweep).children other := by
  rw [children, release_scope table sweep id scope read]
  by_cases same : other = id
  · rw [if_pos same, if_pos same]
  · rw [if_neg same, if_neg same]
    rfl

theorem release_occupied :
    occupied (sweep.release id.index ⟨id.generation, some scope⟩).slots + 1 = occupied sweep.slots := by
  have counts := write_occupied (table.resume sweep)
    (table.resume (sweep.release id.index ⟨id.generation, some scope⟩)) id.slot _
    (Slot.vacate ⟨id.generation, some scope⟩) ((scope_iff_slot _ id scope).mp read) rfl
  simpa [Slot.vacate, resume] using counts

theorem allocated_release (allocated : (table.resume sweep).Allocated) :
    (table.resume (sweep.release id.index ⟨id.generation, some scope⟩)).Allocated := by
  have occupiedHere : id.index ∉ sweep.free := by
    intro member
    obtain ⟨generation, empty⟩ := allocated.freeVacant id.index member
    have slot := (scope_iff_slot _ id scope).mp read
    rw [ScopeId.slot, empty] at slot
    cases slot
  have vacancies : ∀ index, (table.resume sweep).Vacant index ∨ index = id.slot →
      (table.resume (sweep.release id.index ⟨id.generation, some scope⟩)).Vacant index := by
    intro index vacant
    rw [Vacant, release_slot table sweep id scope read]
    by_cases same : index = id.slot
    · rw [if_pos same]
      exact ⟨_, rfl⟩
    · rw [if_neg same]
      exact vacant.resolve_right same
  refine ⟨?_, ?_, ?_⟩
  · have counts := release_occupied table sweep id scope read
    have counted : table.live - sweep.released = occupied sweep.slots := allocated.counted
    change table.live - (sweep.released + 1) = occupied (sweep.release id.index ⟨id.generation, some scope⟩).slots
    omega
  · change (if id.generation < Slot.lastGeneration then id.index :: sweep.free else sweep.free).Nodup
    split
    · exact List.nodup_cons.mpr ⟨occupiedHere, allocated.freeDistinct⟩
    · exact allocated.freeDistinct
  · intro index member
    apply vacancies
    change index ∈ (if id.generation < Slot.lastGeneration then id.index :: sweep.free else sweep.free) at member
    split at member
    · rcases List.mem_cons.mp member with same | old
      · exact Or.inr (congrArg UInt32.toNat same)
      · exact Or.inl (allocated.freeVacant index old)
    · exact Or.inl (allocated.freeVacant index member)

end Release

-- What a sweep from the ids in `cut` has done when it is over: it released the scopes in `order`, one
-- after the other, and these are the scopes that `cut` leads to.
structure Swept (table : SymbolTable) (cut : List ScopeId) (next : SymbolTable) (order : List ScopeId) : Prop where
  distinct : order.Nodup
  members : ∀ id, id ∈ order ↔ table.Meets cut id
  vacated : ∀ id ∈ order, next.slots[id.slot]? = some (Slot.vacate ⟨id.generation, none⟩)
  kept : ∀ index, (∀ id ∈ order, id.slot ≠ index) → next.slots[index]? = table.slots[index]?
  size : next.slots.size = table.slots.size
  freed : next.free =
    ((order.filter fun id => id.generation < Slot.lastGeneration).map ScopeId.index).reverse ++ table.free

theorem swept_live (table next : SymbolTable) (cut order : List ScopeId) (swept : Swept table cut next order) (id : ScopeId)
    (member : id ∈ order) : table.contains id = true :=
  meets_live table cut id ((swept.members id).mp member)

theorem swept_scope (table next : SymbolTable) (cut order : List ScopeId) (swept : Swept table cut next order)
    (id : ScopeId) : next.scope? id = if id ∈ order then none else table.scope? id := by
  by_cases member : id ∈ order
  · rw [if_pos member]
    exact vacant_holds_none next id ⟨_, swept.vacated id member⟩
  · rw [if_neg member]
    by_cases taken : ∃ other ∈ order, other.slot = id.slot
    · obtain ⟨other, released, sameSlot⟩ := taken
      obtain ⟨held, live⟩ := (contains_iff table other).mp (swept_live table next cut order swept other released)
      have gone : next.scope? id = none := vacant_holds_none next id ⟨_, sameSlot ▸ swept.vacated other released⟩
      cases before : table.scope? id with
      | none => exact gone
      | some scope =>
          have same := slot_holds_one table other id held scope live before sameSlot
          exact absurd (same ▸ released) member
    · apply scope_of_slots
      exact swept.kept id.slot (fun other released same => taken ⟨other, released, same⟩)

theorem swept_nothing (table : SymbolTable) : Swept table [] table [] := by
  refine ⟨List.nodup_nil, ?_, by simp, fun _ _ => rfl, rfl, rfl⟩
  intro id
  constructor
  · intro member
    cases member
  · intro met
    induction met with
    | waiting _ _ member => cases member
    | nested _ _ _ _ _ _ _ ih => cases ih

theorem swept_skip (table next : SymbolTable) (listed : ScopeId) (pending order : List ScopeId)
    (empty : ∀ id, id.slot = listed.slot → table.contains id = false) (swept : Swept table pending next order) :
    Swept table (listed :: pending) next order where
  distinct := swept.distinct
  members := fun id => (swept.members id).trans (meets_skip table listed pending empty id).symm
  vacated := swept.vacated
  kept := swept.kept
  size := swept.size
  freed := swept.freed

theorem swept_release (table : SymbolTable) (sweep : Sweep) (listed id : ScopeId) (scope : Scope) (pending : List ScopeId)
    (next : SymbolTable) (order : List ScopeId) (sameSlot : id.slot = listed.slot)
    (read : (table.resume sweep).scope? id = some scope)
    (swept : Swept (table.resume (sweep.release id.index ⟨id.generation, some scope⟩))
      (scope.children.reverse ++ pending) next order) :
    Swept (table.resume sweep) (listed :: pending) next (id :: order) := by
  have slots := release_slot table sweep id scope read
  have contained := release_contains table sweep id scope read
  have elsewhere : ∀ other ∈ order, other.slot ≠ id.slot := by
    intro other member same
    have present := (contained other).mp (swept_live _ next _ order swept other member)
    exact present.2 (live_same_slot _ other id present.1 (contains_of_scope _ id scope read) same)
  refine ⟨?_, ?_, ?_, ?_, ?_, ?_⟩
  · exact List.nodup_cons.mpr ⟨fun member => elsewhere id member rfl, swept.distinct⟩
  · intro other
    rw [List.mem_cons, swept.members, ← children_of_scope _ id scope read]
    exact (meets_release _ _ listed id pending sameSlot (contains_of_scope _ id scope read) contained
      (release_children table sweep id scope read) other).symm
  · intro other member
    rcases List.mem_cons.mp member with same | old
    · rw [same, swept.kept id.slot elsewhere, slots, if_pos rfl]
    · exact swept.vacated other old
  · intro index untouched
    rw [swept.kept index (fun other member => untouched other (List.mem_cons_of_mem id member)), slots,
      if_neg (Ne.symm (untouched id List.mem_cons_self))]
  · rw [swept.size]
    exact Array.size_setIfInBounds
  · rw [swept.freed]
    change _ ++ (if id.generation < Slot.lastGeneration then id.index :: sweep.free else sweep.free) = _
    by_cases early : id.generation < Slot.lastGeneration
    · simp [early, resume]
    · simp [early, resume]

end SymbolTable

namespace SymbolTable.Sweep

-- The sweep as a machine would do it, where looking at a slot that does not exist fails.
def runChecked (sweep : Sweep) : List ScopeId → Option Sweep
  | [] => some sweep
  | id :: pending =>
    match found : sweep.slots[id.slot]? with
    | none => none
    | some slot =>
      match present : slot.scope with
      | none => sweep.runChecked pending
      | some scope => (sweep.release id.index slot).runChecked (scope.children.reverse ++ pending)
termination_by pending => (occupied sweep.slots, pending.length)
decreasing_by
  · exact Prod.Lex.right _ (Nat.lt_succ_self _)
  · exact Prod.Lex.left _ _ (occupied_release found present)

end SymbolTable.Sweep

namespace SymbolTable

theorem run_cons (sweep : Sweep) (id : ScopeId) (pending : List ScopeId) :
    sweep.run (id :: pending) =
      match sweep.slots[id.slot]? with
      | some ⟨generation, some scope⟩ =>
        (sweep.release id.index ⟨generation, some scope⟩).run (scope.children.reverse ++ pending)
      | _ => sweep.run pending := by
  rw [Sweep.run]
  split
  · rename_i found
    rw [found]
  · rename_i slot found
    obtain ⟨generation, held⟩ := slot
    rw [found]
    cases held <;> rfl

theorem run_checked_cons (sweep : Sweep) (id : ScopeId) (pending : List ScopeId) :
    sweep.runChecked (id :: pending) =
      match sweep.slots[id.slot]? with
      | some ⟨generation, some scope⟩ =>
        (sweep.release id.index ⟨generation, some scope⟩).runChecked (scope.children.reverse ++ pending)
      | some ⟨_, none⟩ => sweep.runChecked pending
      | none => none := by
  rw [Sweep.runChecked]
  split
  · rename_i found
    rw [found]
  · rename_i slot found
    obtain ⟨generation, held⟩ := slot
    rw [found]
    cases held <;> rfl

-- Along the recursion of the sweep itself. Nothing is asked of the table: an id of the work list may be
-- stale or have been dealt with already.
theorem run_swept (table : SymbolTable) (sweep : Sweep) (pending : List ScopeId) :
    ∃ order, Swept (table.resume sweep) pending (table.resume (sweep.run pending)) order ∧
      (sweep.run pending).released = sweep.released + order.length ∧
      occupied (sweep.run pending).slots + order.length = occupied sweep.slots ∧
      ((table.resume sweep).Allocated → (table.resume (sweep.run pending)).Allocated) := by
  induction sweep, pending using Sweep.run.induct with
  | case1 sweep =>
      rw [Sweep.run]
      exact ⟨[], swept_nothing _, rfl, rfl, id⟩
  | case2 sweep listed pending absent ih =>
      have same : sweep.run (listed :: pending) = sweep.run pending := by rw [run_cons, absent]
      obtain ⟨order, swept, rest⟩ := ih
      rw [same]
      refine ⟨order, swept_skip _ _ listed pending order ?_ swept, rest⟩
      intro id sameSlot
      simp [not_contains_iff, scope?, sameSlot, resume, absent]
  | case3 sweep listed pending slot found vacant ih =>
      obtain ⟨generation, held⟩ := slot
      dsimp only at vacant
      subst vacant
      have same : sweep.run (listed :: pending) = sweep.run pending := by rw [run_cons, found]
      obtain ⟨order, swept, rest⟩ := ih
      rw [same]
      refine ⟨order, swept_skip _ _ listed pending order ?_ swept, rest⟩
      intro id sameSlot
      rw [not_contains_iff]
      exact vacant_holds_none _ id ⟨generation, sameSlot ▸ found⟩
  | case4 sweep listed pending slot found scope present ih =>
      obtain ⟨generation, held⟩ := slot
      dsimp only at present
      subst present
      have same : sweep.run (listed :: pending) =
          (sweep.release listed.index ⟨generation, some scope⟩).run (scope.children.reverse ++ pending) := by
        rw [run_cons, found]
      have read : (table.resume sweep).scope? ⟨listed.index, generation⟩ = some scope :=
        (scope_iff_slot _ ⟨listed.index, generation⟩ scope).mpr found
      obtain ⟨order, swept, released, counted, allocated⟩ := ih
      rw [same]
      refine ⟨⟨listed.index, generation⟩ :: order,
        swept_release table sweep listed ⟨listed.index, generation⟩ scope pending _ order rfl read swept, ?_, ?_,
        fun before => allocated (allocated_release table sweep ⟨listed.index, generation⟩ scope read before)⟩
      · rw [released, List.length_cons]
        change sweep.released + 1 + order.length = _
        omega
      · have counts := release_occupied table sweep ⟨listed.index, generation⟩ scope read
        rw [List.length_cons]
        dsimp only at counts
        omega

theorem run_checked (table : SymbolTable) (sweep : Sweep) (pending : List ScopeId)
    (waits : ∀ id ∈ pending, id.slot < sweep.slots.size)
    (lists : ∀ id child, child ∈ (table.resume sweep).children id → child.slot < sweep.slots.size) :
    sweep.runChecked pending = some (sweep.run pending) := by
  induction sweep, pending using Sweep.run.induct with
  | case1 sweep => rw [Sweep.run, Sweep.runChecked]
  | case2 sweep listed pending absent ih =>
      have bound := waits listed List.mem_cons_self
      rw [Array.getElem?_eq_getElem bound] at absent
      cases absent
  | case3 sweep listed pending slot found vacant ih =>
      obtain ⟨generation, held⟩ := slot
      dsimp only at vacant
      subst vacant
      rw [run_cons, run_checked_cons, found]
      exact ih (fun id member => waits id (List.mem_cons_of_mem listed member)) lists
  | case4 sweep listed pending slot found scope present ih =>
      obtain ⟨generation, held⟩ := slot
      dsimp only at present
      subst present
      have read : (table.resume sweep).scope? ⟨listed.index, generation⟩ = some scope :=
        (scope_iff_slot _ ⟨listed.index, generation⟩ scope).mpr found
      have sameSize : (sweep.release listed.index ⟨generation, some scope⟩).slots.size = sweep.slots.size :=
        Array.size_setIfInBounds
      rw [run_cons, run_checked_cons, found]
      apply ih
      · intro id member
        rw [sameSize]
        rcases List.mem_append.mp member with child | later
        · apply lists ⟨listed.index, generation⟩
          rw [children_of_scope _ _ scope read]
          exact List.mem_reverse.mp child
        · exact waits id (List.mem_cons_of_mem listed later)
      · intro id child member
        rw [release_children table sweep ⟨listed.index, generation⟩ scope read] at member
        rw [sameSize]
        split at member
        · cases member
        · exact lists id child member

theorem detach_relink (table : SymbolTable) (parent : Option ScopeId) (id : ScopeId) :
    table.detach parent id = table.relink parent (List.filter (· != id)) := by
  cases parent <;> rfl

-- As `destroy`, but an access to a slot that does not exist and a live counter that would go below zero
-- are failures.
def destroyChecked (table : SymbolTable) (id : ScopeId) : Option (Nat × SymbolTable) :=
  match table.scope? id with
  | none => some (0, table)
  | some scope =>
    let table := table.detach scope.parent id
    match Sweep.runChecked ⟨table.slots, table.free, 0⟩ [id] with
    | none => none
    | some sweep =>
      if sweep.released ≤ table.live then
        some (sweep.released,
          { table with
            slots := sweep.slots
            free := sweep.free
            live := table.live - sweep.released })
      else none

theorem destroy_absent (table : SymbolTable) (id : ScopeId) (absent : table.contains id = false) :
    table.destroy id = (0, table) := by
  rw [not_contains_iff] at absent
  rw [destroy, absent]

theorem destroy_names (table : SymbolTable) (id : ScopeId) : (table.destroy id).2.names = table.names := by
  cases read : table.scope? id with
  | none => simp only [destroy, read]
  | some scope =>
      simp only [destroy, read, detach_relink]
      exact (relink_frame table scope.parent _).2.2

-- The table as it is when the sweep starts: the scope is still there, but its parent does not list it.
def detached (table : SymbolTable) (id : ScopeId) : SymbolTable :=
  table.relink (table.parent? id) (List.filter (· != id))

section Destroy

variable (table : SymbolTable) (id : ScopeId) (live : table.contains id = true)

theorem detached_children (linked : table.Linked) (other : ScopeId) :
    (table.detached id).children other =
      if table.parent? id = some other then (table.children other).filter (· != id) else table.children other :=
  relink_children table _ _ (linked_parent_live table linked id) other

theorem mem_detached (linked : table.Linked) (other child : ScopeId) :
    child ∈ (table.detached id).children other ↔
      child ∈ table.children other ∧ (table.parent? id = some other → child ≠ id) := by
  rw [detached_children table id linked]
  split
  · rename_i above
    simp [above]
  · rename_i apart
    simp [apart]

theorem detached_meets (linked : table.Linked) (inner : ScopeId) :
    (table.detached id).Meets [id] inner ↔ table.Meets [id] inner := by
  have members := mem_detached table id linked
  apply meets_detached table (table.detached id) id (relink_contains table _ _)
  · intro other child member
    exact ((members other child).mp member).1
  · intro other child member
    by_cases same : child = id
    · exact Or.inr same
    · exact Or.inl ((members other child).mpr ⟨member, fun _ => same⟩)

theorem released_live (next : SymbolTable) (order : List ScopeId) (swept : Swept (table.detached id) [id] next order)
    (other : ScopeId) (member : other ∈ order) : table.contains other = true :=
  (relink_contains table _ _ other).symm.trans (swept_live _ _ _ _ swept other member)

include live

theorem destroy_swept :
    ∃ order, Swept (table.detached id) [id] (table.destroy id).2 order ∧ (table.destroy id).1 = order.length ∧
      (table.Allocated → (table.destroy id).2.Allocated ∧ (table.destroy id).2.live + order.length = table.live) := by
  obtain ⟨scope, read⟩ := (contains_iff table id).mp live
  rw [detached, parent_of_scope table id scope read]
  simp only [destroy, read, detach_relink]
  have allocated := allocated_relink table scope.parent (List.filter (· != id))
  obtain ⟨_, sameLive, _⟩ := relink_frame table scope.parent (List.filter (· != id))
  generalize table.relink scope.parent (List.filter (· != id)) = start at allocated sameLive
  obtain ⟨order, swept, released, counted, kept⟩ := run_swept start ⟨start.slots, start.free, 0⟩ [id]
  dsimp only at released counted
  rw [Nat.zero_add] at released
  refine ⟨order, swept, released, fun before => ⟨kept (allocated before), ?_⟩⟩
  have total : start.live = occupied start.slots := (allocated before).counted
  omega

theorem destroy_checked (sound : table.Sound) : table.destroyChecked id = some (table.destroy id) := by
  obtain ⟨order, _, counted, remaining⟩ := destroy_swept table id live
  obtain ⟨_, remaining⟩ := remaining sound.allocated
  obtain ⟨scope, read⟩ := (contains_iff table id).mp live
  have bound : id.slot < table.slots.size :=
    (Array.getElem?_eq_some_iff.mp ((scope_iff_slot table id scope).mp read)).1
  have lists := mem_detached table id sound.linked
  have sameSize := relink_size table (table.parent? id) (List.filter (· != id))
  obtain ⟨_, sameLive, _⟩ := relink_frame table (table.parent? id) (List.filter (· != id))
  rw [detached, parent_of_scope table id scope read] at lists
  rw [parent_of_scope table id scope read] at sameSize sameLive
  simp only [destroyChecked, destroy, read, detach_relink] at counted ⊢
  generalize table.relink scope.parent (List.filter (· != id)) = start at *
  have checked := run_checked start ⟨start.slots, start.free, 0⟩ [id]
    (by simpa [sameSize] using bound)
    (by
      intro other child member
      change child ∈ start.children other at member
      rw [sameSize]
      exact sound.linked.inside other child ((lists other child).mp member).1)
  rw [checked]
  exact if_pos (by omega)

-- Nothing that is not met changes, but for the list of the parent.
theorem destroy_scope (linked : table.Linked) :
    ∃ order : List ScopeId, order.Nodup ∧ (table.destroy id).1 = order.length ∧
      (∀ inner, inner ∈ order ↔ table.Meets [id] inner) ∧
      ∀ other, (table.destroy id).2.scope? other = if other ∈ order then none else (table.detached id).scope? other := by
  obtain ⟨order, swept, released, _⟩ := destroy_swept table id live
  refine ⟨order, swept.distinct, released, ?_, swept_scope _ _ [id] order swept⟩
  intro inner
  rw [swept.members, detached_meets table id linked]

theorem destroy_met (linked : table.Linked) (inner : ScopeId) (met : table.Meets [id] inner) :
    (table.destroy id).2.scope? inner = none := by
  obtain ⟨order, _, _, members, scopes⟩ := destroy_scope table id live linked
  rw [scopes, if_pos ((members inner).mpr met)]

theorem destroy_unmet (linked : table.Linked) (other : ScopeId) (free : ¬ table.Meets [id] other) :
    (table.destroy id).2.scope? other = (table.detached id).scope? other := by
  obtain ⟨order, _, _, members, scopes⟩ := destroy_scope table id live linked
  rw [scopes, if_neg (fun member => free ((members other).mp member))]

omit live in
theorem destroy_size : (table.destroy id).2.slots.size = table.slots.size := by
  cases live : table.contains id with
  | false => rw [destroy_absent table id live]
  | true =>
      obtain ⟨_, swept, _, _⟩ := destroy_swept table id live
      rw [swept.size]
      exact relink_size table _ _

theorem destroy_live_iff (linked : table.Linked) (other : ScopeId) :
    (table.destroy id).2.contains other = true ↔ table.contains other = true ∧ ¬ table.Meets [id] other := by
  by_cases met : table.Meets [id] other
  · simp [contains, destroy_met table id live linked other met, met]
  · have same : (table.destroy id).2.contains other = table.contains other := by
      rw [contains, destroy_unmet table id live linked other met]
      exact relink_contains table _ _ other
    simp [same, met]

theorem destroy_parent (linked : table.Linked) (inner outer : ScopeId)
    (link : (table.destroy id).2.parent? inner = some outer) :
    table.parent? inner = some outer ∧ ¬ table.Meets [id] inner := by
  by_cases met : table.Meets [id] inner
  · simp [parent?, destroy_met table id live linked inner met] at link
  · rw [parent?, destroy_unmet table id live linked inner met] at link
    exact ⟨(relink_parent table _ _ inner).symm.trans link, met⟩

theorem destroy_children (linked : table.Linked) (outer child : ScopeId) (member : child ∈ (table.destroy id).2.children outer) :
    (child ∈ table.children outer ∧ (table.parent? id = some outer → child ≠ id)) ∧ ¬ table.Meets [id] outer := by
  by_cases met : table.Meets [id] outer
  · simp [children, destroy_met table id live linked outer met] at member
  · rw [children, destroy_unmet table id live linked outer met] at member
    exact ⟨(mem_detached table id linked outer child).mp member, met⟩

-- A scope that is left lists all its children still: if the parent goes, what it lists goes too.
theorem linked_destroy (linked : table.Linked) : (table.destroy id).2.Linked := by
  have start : table.Meets [id] id := .waiting id id List.mem_cons_self rfl live
  refine ⟨?_, ?_, ?_⟩
  · intro inner outer link
    obtain ⟨before, free⟩ := destroy_parent table id live linked inner outer link
    have listed := linked.listed inner outer before
    have apart : ¬ table.Meets [id] outer := fun met =>
      free (.nested outer inner inner met listed rfl (contains_of_parent table inner outer before))
    have different : inner ≠ id := fun same => free (same ▸ start)
    rw [children, destroy_unmet table id live linked outer apart]
    exact (mem_detached table id linked outer inner).mpr ⟨listed, fun _ => different⟩
  · intro outer child member
    obtain ⟨before, _⟩ := destroy_children table id live linked outer child member
    rw [destroy_size table id]
    exact linked.inside outer child before.1
  · obtain ⟨rank, ranked⟩ := linked.ranked
    exact ⟨rank, fun inner outer link => ranked inner outer (destroy_parent table id live linked inner outer link).1⟩

theorem nested_destroy (linked : table.Linked) (nested : table.Nested) : (table.destroy id).2.Nested := by
  refine ⟨?_, ?_⟩
  · intro outer
    by_cases met : table.Meets [id] outer
    · rw [children, destroy_met table id live linked outer met]
      exact List.nodup_nil
    · rw [children, destroy_unmet table id live linked outer met]
      change ((table.detached id).children outer).Nodup
      rw [detached_children table id linked]
      split
      · exact (nested.once outer).filter _
      · exact nested.once outer
  · intro outer child member
    obtain ⟨⟨listed, kept⟩, apart⟩ := destroy_children table id live linked outer child member
    have link := nested.owned outer child listed
    have free : ¬ table.Meets [id] child := by
      intro met
      rcases (nested_meets_encloses table nested id child live met).cases_head with same | ⟨above, isAbove, enclosed⟩
      · exact kept (same ▸ link) same
      · have sameParent : above = outer := Option.some.inj (isAbove.symm.trans link)
        exact apart (linked_encloses_meets table linked id outer live (sameParent ▸ enclosed))
    rw [parent?, destroy_unmet table id live linked child free]
    exact (relink_parent table _ _ child).trans link

theorem named_destroy (named : table.Named) : (table.destroy id).2.Named := by
  have start := named_relink table (table.parent? id) (List.filter (· != id)) named
  have sameNames := destroy_names table id
  obtain ⟨order, swept, _, _⟩ := destroy_swept table id live
  refine ⟨?_, ?_⟩
  · rw [sameNames]
    exact named.distinct
  · intro index generation scope slot
    rw [sameNames, ← (relink_frame table (table.parent? id) (List.filter (· != id))).2.2]
    by_cases released : ∃ other ∈ order, other.slot = index
    · obtain ⟨other, member, rfl⟩ := released
      rw [swept.vacated other member] at slot
      simp [Slot.vacate] at slot
    · rw [swept.kept index (fun other member same => released ⟨other, member, same⟩)] at slot
      exact start.slots index generation scope slot

end Destroy

theorem destroy_sound (table : SymbolTable) (id : ScopeId) (sound : table.Sound) : (table.destroy id).2.Sound := by
  cases live : table.contains id with
  | false =>
      rw [destroy_absent table id live]
      exact sound
  | true =>
      obtain ⟨_, _, _, rest⟩ := destroy_swept table id live
      exact ⟨(rest sound.allocated).1, linked_destroy table id live sound.linked, named_destroy table id live sound.named⟩

theorem destroy_nested (table : SymbolTable) (id : ScopeId) (linked : table.Linked) (nested : table.Nested) :
    (table.destroy id).2.Nested := by
  cases live : table.contains id with
  | false =>
      rw [destroy_absent table id live]
      exact nested
  | true => exact nested_destroy table id live linked nested

end SymbolTable

end Frontend
