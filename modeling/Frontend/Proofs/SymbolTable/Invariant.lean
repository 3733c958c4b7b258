import Frontend.Proofs.NamePool
import Frontend.Proofs.SymbolTable.Slots

set_option autoImplicit false

namespace Frontend.SymbolTable

def freeSlots (table : SymbolTable) : List Nat := table.free.map UInt32.toNat

structure Allocated (table : SymbolTable) : Prop where
  counted : table.live = occupied table.slots
  freeDistinct : table.free.Nodup
  freeVacant : ∀ index ∈ table.free, table.Vacant index.toNat

-- What holds of the links between scopes however many there are. The rank makes every chain of parents end;
-- it cannot be the number of the slot, since slots are used again.
structure Linked (table : SymbolTable) : Prop where
  listed : ∀ id outer, table.parent? id = some outer → id ∈ table.children outer
  inside : ∀ id child, child ∈ table.children id → child.slot < table.slots.size
  ranked : ∃ rank : ScopeId → Nat, ∀ id outer, table.parent? id = some outer → rank outer < rank id

-- No scope lists a stranger. This holds only while every slot has an index of its own: past that, a new scope
-- is listed under an id that may be another scope's.
structure Nested (table : SymbolTable) : Prop where
  once : ∀ id, (table.children id).Nodup
  owned : ∀ id child, child ∈ table.children id → table.parent? child = some id

def keys (scope : Scope) : List NamePool.Key := scope.records.map Record.name

def WellNamed (pool : NamePool) (keys : List NamePool.Key) : Prop :=
  keys.Nodup ∧ ∀ key ∈ keys, ∃ name, pool.name? key = some name

-- Said of the slots, since there may be scopes that no id leads to.
structure Named (table : SymbolTable) : Prop where
  distinct : table.names.Distinct
  slots : ∀ (index generation : Nat) (scope : Scope),
    table.slots[index]? = some ⟨generation, some scope⟩ → WellNamed table.names (keys scope)

structure Sound (table : SymbolTable) : Prop where
  allocated : table.Allocated
  linked : table.Linked
  named : table.Named

theorem Named.wellNamed {table : SymbolTable} (named : table.Named) (id : ScopeId) (scope : Scope)
    (read : table.scope? id = some scope) : WellNamed table.names (keys scope) :=
  named.slots id.slot id.generation scope ((scope_iff_slot table id scope).mp read)

theorem children_of_scope (table : SymbolTable) (id : ScopeId) (scope : Scope) (read : table.scope? id = some scope) :
    table.children id = scope.children := by
  rw [children, read]

theorem parent_of_scope (table : SymbolTable) (id : ScopeId) (scope : Scope) (read : table.scope? id = some scope) :
    table.parent? id = scope.parent := by
  rw [parent?, read]
  rfl

theorem contains_of_scope (table : SymbolTable) (id : ScopeId) (scope : Scope) (read : table.scope? id = some scope) :
    table.contains id = true := by
  rw [contains, read]
  rfl

theorem contains_of_parent (table : SymbolTable) (id outer : ScopeId) (link : table.parent? id = some outer) :
    table.contains id = true := by
  obtain ⟨scope, read, _⟩ := (parent_iff table id outer).mp link
  exact contains_of_scope table id scope read

theorem contains_of_child (table : SymbolTable) (id child : ScopeId) (member : child ∈ table.children id) :
    table.contains id = true := by
  cases read : table.scope? id with
  | none => simp [children, read] at member
  | some scope => exact contains_of_scope table id scope read

theorem linked_parent_live (table : SymbolTable) (linked : table.Linked) (id outer : ScopeId)
    (link : table.parent? id = some outer) : table.contains outer = true :=
  contains_of_child table outer id (linked.listed id outer link)

theorem linked_congr (table next : SymbolTable) (sameSize : next.slots.size = table.slots.size)
    (sameParents : ∀ id, next.parent? id = table.parent? id) (sameChildren : ∀ id, next.children id = table.children id)
    (linked : table.Linked) : next.Linked := by
  refine ⟨?_, ?_, ?_⟩
  · intro id outer link
    rw [sameParents] at link
    rw [sameChildren]
    exact linked.listed id outer link
  · intro id child member
    rw [sameChildren] at member
    rw [sameSize]
    exact linked.inside id child member
  · obtain ⟨rank, ranked⟩ := linked.ranked
    refine ⟨rank, fun id outer link => ranked id outer ?_⟩
    rw [← sameParents]
    exact link

theorem nested_congr (table next : SymbolTable) (sameParents : ∀ id, next.parent? id = table.parent? id)
    (sameChildren : ∀ id, next.children id = table.children id) (nested : table.Nested) : next.Nested := by
  refine ⟨?_, ?_⟩
  · intro id
    rw [sameChildren]
    exact nested.once id
  · intro id child member
    rw [sameChildren] at member
    rw [sameParents]
    exact nested.owned id child member

section Modify

variable (table : SymbolTable) (id : ScopeId) (change : Scope → Scope)

theorem modify_contains (other : ScopeId) : (table.modifyScope id change).contains other = table.contains other := by
  rw [contains, contains, modify_scope]
  by_cases same : other = id
  · rw [if_pos same, Option.isSome_map, same]
  · rw [if_neg same]

theorem modify_parent (sameParent : ∀ scope, (change scope).parent = scope.parent) (other : ScopeId) :
    (table.modifyScope id change).parent? other = table.parent? other := by
  rw [parent?, parent?, modify_scope]
  by_cases same : other = id
  · rw [if_pos same, same]
    cases table.scope? id with
    | none => rfl
    | some scope => exact sameParent scope
  · rw [if_neg same]

theorem modify_children (other : ScopeId) :
    (table.modifyScope id change).children other =
      if other = id then ((table.scope? id).map fun scope => (change scope).children).getD [] else table.children other := by
  rw [children, modify_scope]
  by_cases same : other = id
  · rw [if_pos same, if_pos same]
    cases table.scope? id <;> rfl
  · rw [if_neg same, if_neg same]
    rfl

theorem allocated_modify (allocated : table.Allocated) : (table.modifyScope id change).Allocated := by
  obtain ⟨sameFree, sameLive, _⟩ := modify_frame table id change
  refine ⟨?_, ?_, ?_⟩
  · rw [sameLive, modify_occupied]
    exact allocated.counted
  · rw [sameFree]
    exact allocated.freeDistinct
  · intro index member
    rw [sameFree] at member
    exact (modify_vacant table id change index.toNat).mpr (allocated.freeVacant index member)

theorem modify_size : (table.modifyScope id change).slots.size = table.slots.size := by
  cases read : table.scope? id with
  | none => rw [modify_absent table id change read]
  | some scope =>
      rw [modify_slots table id change scope read]
      exact Array.size_setIfInBounds

theorem modify_children_same (sameChildren : ∀ scope, (change scope).children = scope.children) (other : ScopeId) :
    (table.modifyScope id change).children other = table.children other := by
  rw [modify_children]
  by_cases same : other = id
  · rw [if_pos same, same, children]
    cases table.scope? id with
    | none => rfl
    | some scope => exact sameChildren scope
  · rw [if_neg same]

theorem linked_modify (sameParent : ∀ scope, (change scope).parent = scope.parent)
    (sameChildren : ∀ scope, (change scope).children = scope.children) (linked : table.Linked) :
    (table.modifyScope id change).Linked :=
  linked_congr table _ (modify_size table id change) (modify_parent table id change sameParent)
    (modify_children_same table id change sameChildren) linked

theorem nested_modify (sameParent : ∀ scope, (change scope).parent = scope.parent)
    (sameChildren : ∀ scope, (change scope).children = scope.children) (nested : table.Nested) :
    (table.modifyScope id change).Nested :=
  nested_congr table _ (modify_parent table id change sameParent) (modify_children_same table id change sameChildren) nested

theorem named_modify (named : table.Named)
    (kept : ∀ scope, table.scope? id = some scope → WellNamed table.names (keys (change scope))) :
    (table.modifyScope id change).Named := by
  obtain ⟨_, _, sameNames⟩ := modify_frame table id change
  refine ⟨?_, ?_⟩
  · rw [sameNames]
    exact named.distinct
  · intro index generation scope slot
    rw [sameNames]
    cases read : table.scope? id with
    | none =>
        rw [modify_absent table id change read] at slot
        exact named.slots index generation scope slot
    | some old =>
        rw [write_slot table _ _ _ _ ((scope_iff_slot table id old).mp read) (modify_slots table id change old read)] at slot
        by_cases same : index = id.slot
        · rw [if_pos same] at slot
          cases slot
          exact kept old read
        · rw [if_neg same] at slot
          exact named.slots index generation scope slot

end Modify

end Frontend.SymbolTable
