import Frontend.Proofs.SymbolTable.Arena

set_option autoImplicit false

namespace Frontend.SymbolTable

structure Consistent (table : SymbolTable) : Prop where
  counted : table.scopeCount = occupied table.slots
  freeDistinct : table.free.Nodup
  freeExact : ∀ index, index ∈ table.freeSlots ↔ table.Vacant index
  parentLists : ∀ id scope outer, table.scope? id = some scope → scope.parent = some outer →
    ∃ around, table.scope? outer = some around ∧ around.children.count id = 1
  childrenLive : ∀ id scope child, table.scope? id = some scope → child ∈ scope.children →
    ∃ inner, table.scope? child = some inner ∧ inner.parent = some id
  rooted : ∀ id, table.contains id = true →
    ∃ root, table.Encloses root id ∧ table.contains root = true ∧ table.parent? root = none
  acyclic : ∀ id, ¬ Relation.TransGen table.ChildOf id id
  namesDiffer : ∀ id scope, table.scope? id = some scope →
    scope.records.Pairwise fun a b => table.names.name? a.name ≠ table.names.name? b.name
  ownKey : ∀ id scope index record, table.scope? id = some scope → scope.records[index]? = some record →
    ∃ name, table.names.name? record.name = some name ∧ table.names.find? name = some record.name ∧
      scope.indexOf? record.name = some index

-- An operation spares the generations if every scope that it releases leaves its slot for another one.
def Spares (table : SymbolTable) : Operation → Prop
  | .destroy top =>
    ∀ id, table.contains id = true → (table.destroy top).2.contains id = false → id.generation < Slot.lastGeneration
  | _ => True

def SparesAll (table : SymbolTable) : List Operation → Prop
  | [] => True
  | operation :: operations => table.Spares operation ∧ (table.perform operation).2.SparesAll operations

theorem perform_recovers (table : SymbolTable) (operation : Operation) (sound : table.Sound)
    (spared : table.Spares operation) (recovered : ∀ index, table.Vacant index → index ∈ table.freeSlots) (index : Nat)
    (vacant : (table.perform operation).2.Vacant index) : index ∈ (table.perform operation).2.freeSlots := by
  cases perform_change table operation sound index with
  | kept _ sameVacant sameFree => exact sameFree.mpr (recovered index (sameVacant.mp vacant))
  | taken _ _ _ occupied _ => exact absurd vacant occupied
  | released id top here destruction before _ _ freed =>
      subst destruction here
      have gone : (table.destroy top).2.contains id = false :=
        (not_contains_iff _ id).mpr (vacant_holds_none _ id vacant)
      exact freed.mpr (spared id before gone)

theorem after_recovers (table : SymbolTable) (operations : List Operation) (sound : table.Sound)
    (spared : table.SparesAll operations) (recovered : ∀ index, table.Vacant index → index ∈ table.freeSlots) (index : Nat)
    (vacant : (table.after operations).Vacant index) : index ∈ (table.after operations).freeSlots := by
  induction operations generalizing table with
  | nil => exact recovered index vacant
  | cons operation operations ih =>
      exact ih (table.perform operation).2 (perform_sound table operation sound) spared.2
        (perform_recovers table operation sound spared.1 recovered) vacant

theorem perform_generation (table : SymbolTable) (operation : Operation) (sound : table.Sound) (bound : Nat)
    (bounded : ∀ index generation, table.generationAt index = some generation → generation ≤ bound) (index generation : Nat)
    (after : (table.perform operation).2.generationAt index = some generation) : generation ≤ bound + 1 := by
  cases perform_change table operation sound index with
  | kept same _ _ => exact Nat.le_succ_of_le (bounded index generation (same ▸ after))
  | taken given before fresh _ _ =>
      rw [fresh] at after
      cases after
      rcases before with ⟨_, zero⟩ | ⟨old, _, _⟩
      · omega
      · exact Nat.le_succ_of_le (bounded index generation old)
  | released id _ here _ before vacated _ _ =>
      rw [vacated] at after
      cases after
      have old := bounded id.slot id.generation ((contains_iff_occupied table id).mp before).1
      simp only [Slot.vacate]
      split <;> omega

-- A slot gets at most one generation further with each operation.
theorem spares_of_length (table : SymbolTable) (operations : List Operation) (sound : table.Sound) (bound : Nat)
    (bounded : ∀ index generation, table.generationAt index = some generation → generation ≤ bound)
    (short : bound + operations.length ≤ Slot.lastGeneration) : table.SparesAll operations := by
  induction operations generalizing table bound with
  | nil => trivial
  | cons operation operations ih =>
      rw [List.length_cons] at short
      refine ⟨?_, ih _ (perform_sound table operation sound) (bound + 1)
        (perform_generation table operation sound bound bounded) (by omega)⟩
      cases operation with
      | destroy top =>
          intro id live _
          have small := bounded id.slot id.generation ((contains_iff_occupied table id).mp live).1
          omega
      | _ => trivial

theorem linked_acyclic (table : SymbolTable) (linked : table.Linked) (id : ScopeId) :
    ¬ Relation.TransGen table.ChildOf id id := by
  obtain ⟨rank, ranked⟩ := linked.ranked
  have drops : ∀ inner outer, Relation.TransGen table.ChildOf inner outer → rank outer < rank inner := by
    intro inner outer chain
    induction chain with
    | single link => exact ranked _ _ link
    | tail _ link ih => exact Nat.lt_trans (ranked _ _ link) ih
  exact fun cycle => Nat.lt_irrefl (rank id) (drops id id cycle)

theorem index_of_own_key (scope : Scope) (index : Nat) (record : Record) (distinct : (keys scope).Nodup)
    (here : scope.records[index]? = some record) : scope.indexOf? record.name = some index := by
  obtain ⟨bound, same⟩ := List.getElem?_eq_some_iff.mp here
  rw [Scope.indexOf?, List.findIdx?_eq_some_iff_getElem]
  refine ⟨bound, by simp [same], ?_⟩
  intro earlier before equal
  have shorter : earlier < scope.records.length := Nat.lt_trans before bound
  have twins : (keys scope)[earlier]? = (keys scope)[index]? := by
    rw [keys, List.getElem?_map, List.getElem?_map, here, List.getElem?_eq_getElem shorter]
    simpa using equal
  have first : earlier < (keys scope).length := by simpa [keys] using shorter
  exact Nat.ne_of_lt before ((List.getElem?_inj first distinct).mp twins)

theorem named_pairwise (table : SymbolTable) (named : table.Named) (id : ScopeId) (scope : Scope)
    (read : table.scope? id = some scope) :
    scope.records.Pairwise fun a b => table.names.name? a.name ≠ table.names.name? b.name := by
  obtain ⟨distinct, resolved⟩ := named.wellNamed id scope read
  have differ := List.pairwise_map.mp distinct
  refine List.Pairwise.imp_of_mem ?_ differ
  intro a b left right different equal
  obtain ⟨name, here⟩ := resolved a.name (List.mem_map_of_mem left)
  exact different (NamePool.name_unique table.names named.distinct a.name b.name name here (equal ▸ here))

theorem sound_consistent (table : SymbolTable) (sound : table.Sound) (nested : table.Nested)
    (recovered : ∀ index, table.Vacant index → index ∈ table.freeSlots) : table.Consistent where
  counted := sound.allocated.counted
  freeDistinct := sound.allocated.freeDistinct
  freeExact := by
    intro index
    refine ⟨fun member => ?_, recovered index⟩
    obtain ⟨free, isFree, rfl⟩ := List.mem_map.mp member
    exact sound.allocated.freeVacant free isFree
  parentLists := by
    intro id scope outer read above
    have link : table.parent? id = some outer := (parent_of_scope table id scope read).trans above
    have listed := sound.linked.listed id outer link
    obtain ⟨around, there⟩ := (contains_iff table outer).mp (linked_parent_live table sound.linked id outer link)
    have distinct := nested.once outer
    rw [children_of_scope table outer around there] at listed distinct
    exact ⟨around, there, List.count_eq_one_of_mem distinct listed⟩
  childrenLive := by
    intro id scope child read member
    rw [← children_of_scope table id scope read] at member
    exact (parent_iff table child id).mp (nested.owned id child member)
  rooted := linked_reaches_root table sound.linked
  acyclic := linked_acyclic table sound.linked
  namesDiffer := named_pairwise table sound.named
  ownKey := by
    intro id scope index record read here
    obtain ⟨distinct, resolved⟩ := sound.named.wellNamed id scope read
    obtain ⟨name, named⟩ := resolved record.name (List.mem_map_of_mem (List.mem_of_getElem? here))
    exact ⟨name, named, (NamePool.find_iff_name table.names sound.named.distinct name record.name).mpr named,
      index_of_own_key scope index record distinct here⟩

theorem run_consistent (operations : List Operation) (spared : empty.SparesAll operations)
    (room : (empty.after operations).slots.size ≤ UInt32.size) : (empty.after operations).Consistent := by
  apply sound_consistent _ (after_sound empty operations empty_sound) (reached_nested _ ⟨operations, rfl⟩ room)
  apply after_recovers empty operations empty_sound spared
  rintro index ⟨generation, slot⟩
  simp [empty] at slot

theorem run_consistent_recycling :
    empty.SparesAll recycling ∧ (empty.after recycling).slots.size ≤ UInt32.size ∧ (empty.after recycling).Consistent := by
  have spared : empty.SparesAll recycling :=
    spares_of_length empty recycling empty_sound 0 (by simp [empty, generationAt]) (by decide)
  have room : (empty.after recycling).slots.size ≤ UInt32.size :=
    Nat.le_trans (after_size_le_length empty recycling empty_sound) (by decide)
  exact ⟨spared, room, run_consistent recycling spared room⟩

end Frontend.SymbolTable
