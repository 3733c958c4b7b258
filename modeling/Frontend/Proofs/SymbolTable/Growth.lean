import Frontend.Proofs.SymbolTable.Invariant

set_option autoImplicit false

namespace Frontend.SymbolTable

-- Both a creation and a destruction change the list of children of one scope, if there is a parent.
def relink (table : SymbolTable) (parent : Option ScopeId) (change : List ScopeId → List ScopeId) : SymbolTable :=
  match parent with
  | none => table
  | some outer => table.modifyScope outer fun scope => { scope with children := change scope.children }

section Relink

variable (table : SymbolTable) (parent : Option ScopeId) (change : List ScopeId → List ScopeId)

theorem relink_scope (id : ScopeId) :
    (table.relink parent change).scope? id =
      if parent = some id then (table.scope? id).map fun scope => { scope with children := change scope.children }
      else table.scope? id := by
  cases parent with
  | none => simp [relink]
  | some outer =>
      rw [relink, modify_scope]
      by_cases same : id = outer
      · rw [if_pos same, if_pos (congrArg some same.symm), same]
      · rw [if_neg same, if_neg (fun equal => same (Option.some.inj equal).symm)]

theorem relink_frame : (table.relink parent change).free = table.free ∧
    (table.relink parent change).live = table.live ∧ (table.relink parent change).names = table.names := by
  cases parent with
  | none => exact ⟨rfl, rfl, rfl⟩
  | some outer => exact modify_frame table outer _

theorem relink_generation (index : Nat) :
    (table.relink parent change).slots[index]?.map Slot.generation = table.slots[index]?.map Slot.generation := by
  cases parent with
  | none => rfl
  | some outer => exact modify_generation table outer _ index

theorem relink_vacant (index : Nat) : (table.relink parent change).Vacant index ↔ table.Vacant index := by
  cases parent with
  | none => rfl
  | some outer => exact modify_vacant table outer _ index

theorem relink_contains (id : ScopeId) : (table.relink parent change).contains id = table.contains id := by
  cases parent with
  | none => rfl
  | some outer => exact modify_contains table outer _ id

theorem relink_parent (id : ScopeId) : (table.relink parent change).parent? id = table.parent? id := by
  cases parent with
  | none => rfl
  | some outer =>
      apply modify_parent
      intro scope
      rfl

theorem relink_children (live : ∀ outer, parent = some outer → table.contains outer = true) (id : ScopeId) :
    (table.relink parent change).children id =
      if parent = some id then change (table.children id) else table.children id := by
  by_cases same : parent = some id
  · obtain ⟨scope, read⟩ := (contains_iff table id).mp (live id same)
    have after : (table.relink parent change).scope? id = some { scope with children := change scope.children } := by
      rw [relink_scope, if_pos same, read]
      rfl
    rw [if_pos same, children_of_scope _ id _ after, children_of_scope table id scope read]
  · rw [if_neg same, children, relink_scope, if_neg same]
    rfl

theorem relink_size : (table.relink parent change).slots.size = table.slots.size := by
  cases parent with
  | none => rfl
  | some outer => exact modify_size table outer _

theorem allocated_relink (allocated : table.Allocated) : (table.relink parent change).Allocated := by
  cases parent with
  | none => exact allocated
  | some outer => exact allocated_modify table outer _ allocated

theorem named_relink (named : table.Named) : (table.relink parent change).Named := by
  cases parent with
  | none => exact named
  | some outer => exact named_modify table outer _ named (fun scope read => named.wellNamed outer scope read)

end Relink

section Place

variable (table : SymbolTable) (scope : Scope) (allocated : table.Allocated)
include allocated

theorem allocated_place : (table.place scope).2.Allocated := by
  have vacancies := allocated.freeVacant
  refine ⟨?_, ?_, ?_⟩
  · rw [place_occupied table scope vacancies, ← allocated.counted]
    exact (place_frame table scope vacancies).2
  · rcases place_cases table scope vacancies with ⟨_, _, placed⟩ | ⟨first, free, generation, available, _, _, placed⟩
    · rw [placed]
      exact allocated.freeDistinct
    · have distinct := allocated.freeDistinct
      rw [available] at distinct
      rw [placed]
      exact (List.nodup_cons.mp distinct).2
  · intro index member
    rw [place_vacant table scope vacancies]
    rcases place_cases table scope vacancies with ⟨available, _, placed⟩ | ⟨first, free, generation, available, next, _, placed⟩
    · rw [placed] at member
      simp [available] at member
    · have distinct := allocated.freeDistinct
      rw [available] at distinct
      rw [placed] at member
      rw [next]
      refine ⟨vacancies index (by rw [available]; exact List.mem_cons_of_mem first member), ?_⟩
      intro same
      rw [UInt32.toNat_inj.mp same] at member
      exact (List.nodup_cons.mp distinct).1 member

theorem named_place (named : table.Named) (bare : scope.records = []) : (table.place scope).2.Named := by
  have sameNames := (place_frame table scope allocated.freeVacant).1
  refine ⟨?_, ?_⟩
  · rw [sameNames]
    exact named.distinct
  · intro index generation held slot
    rw [place_slot table scope allocated.freeVacant] at slot
    rw [sameNames]
    by_cases fresh : index = table.nextSlot
    · rw [if_pos fresh] at slot
      cases slot
      rw [keys, bare]
      exact ⟨List.nodup_nil, by simp⟩
    · rw [if_neg fresh] at slot
      exact named.slots index generation held slot

end Place

-- A new scope is listed by its parent under the id `fresh`. If the id can be read at all, no scope had it before,
-- and it ranks above its own parent.
section Adopt

variable (table next : SymbolTable) (parent : Option ScopeId) (fresh : ScopeId)
  (absent : table.HasRoom → table.contains fresh = false)
  (live : ∀ outer, parent = some outer → table.contains outer = true)
  (parents : ∀ id, next.parent? id = if table.HasRoom ∧ id = fresh then parent else table.parent? id)
  (lists : ∀ id, next.children id = if table.HasRoom ∧ id = fresh then [] else
    if parent = some id then table.children id ++ [fresh] else table.children id)

include absent in
theorem live_not_fresh (id : ScopeId) (present : table.contains id = true) : ¬ (table.HasRoom ∧ id = fresh) := by
  rintro ⟨room, rfl⟩
  rw [absent room] at present
  cases present

include absent parents lists

include live in
theorem linked_adopt (sizes : table.slots.size ≤ next.slots.size) (bound : fresh.slot < next.slots.size)
    (linked : table.Linked) : next.Linked := by
  have differs := live_not_fresh table fresh absent
  refine ⟨?_, ?_, ?_⟩
  · intro id outer link
    rw [parents] at link
    by_cases new : table.HasRoom ∧ id = fresh
    · rw [if_pos new] at link
      rw [lists, if_neg (differs outer (live outer link)), if_pos link, new.2]
      exact List.mem_append_right _ List.mem_cons_self
    · rw [if_neg new] at link
      have member := linked.listed id outer link
      rw [lists, if_neg (differs outer (contains_of_child table outer id member))]
      split
      · exact List.mem_append_left _ member
      · exact member
  · intro id child member
    rw [lists] at member
    have old : child ∈ table.children id → child.slot < next.slots.size := fun before =>
      Nat.lt_of_lt_of_le (linked.inside id child before) sizes
    split at member
    · cases member
    · split at member
      · rcases List.mem_append.mp member with before | new
        · exact old before
        · rw [List.mem_singleton.mp new]
          exact bound
      · exact old member
  · obtain ⟨rank, ranked⟩ := linked.ranked
    refine ⟨fun id => if table.HasRoom ∧ id = fresh then (parent.map rank).getD 0 + 1 else rank id, ?_⟩
    intro id outer link
    rw [parents] at link
    by_cases new : table.HasRoom ∧ id = fresh
    · rw [if_pos new] at link
      simp only [if_pos new, if_neg (differs outer (live outer link)), link, Option.map_some, Option.getD_some]
      exact Nat.lt_succ_self _
    · rw [if_neg new] at link
      have above := linked_parent_live table linked id outer link
      simpa only [if_neg new, if_neg (differs outer above)] using ranked id outer link

theorem nested_adopt (room : table.HasRoom) (nested : table.Nested) : next.Nested := by
  have differs := live_not_fresh table fresh absent
  have unlisted : ∀ id, fresh ∉ table.children id := fun id member =>
    differs fresh (contains_of_parent table fresh id (nested.owned id fresh member)) ⟨room, rfl⟩
  refine ⟨?_, ?_⟩
  · intro id
    rw [lists]
    split
    · exact List.nodup_nil
    · split
      · refine List.nodup_append.mpr ⟨nested.once id, List.nodup_singleton fresh, ?_⟩
        rintro child before _ new rfl
        exact unlisted id (List.mem_singleton.mp new ▸ before)
      · exact nested.once id
  · intro id child member
    rw [lists] at member
    rw [parents]
    have old : child ∈ table.children id →
        (if table.HasRoom ∧ child = fresh then parent else table.parent? child) = some id := by
      intro before
      have different : ¬ (table.HasRoom ∧ child = fresh) := fun new => unlisted id (new.2 ▸ before)
      rw [if_neg different]
      exact nested.owned id child before
    split at member
    · cases member
    · split at member
      · rename_i above
        rcases List.mem_append.mp member with before | new
        · exact old before
        · rw [if_pos ⟨room, List.mem_singleton.mp new⟩]
          exact above
      · exact old member

end Adopt

theorem create_cases (table : SymbolTable) (parent : Option ScopeId) :
    (∃ outer, parent = some outer ∧ table.contains outer = false ∧
      table.createScope parent = (.error (.unknownScope outer), table)) ∨
    (∀ outer, parent = some outer → table.contains outer = true) ∧
      table.createScope parent = (.ok (table.place { parent := parent }).1,
        (table.place { parent := parent }).2.relink parent (· ++ [(table.place { parent := parent }).1])) := by
  cases parent with
  | none => exact Or.inr ⟨by simp, rfl⟩
  | some outer =>
      cases live : table.contains outer with
      | false => exact Or.inl ⟨outer, rfl, live, by simp [createScope, live]⟩
      | true =>
          refine Or.inr ⟨?_, by simp [createScope, live, relink]⟩
          intro other same
          rw [← Option.some.inj same]
          exact live

theorem create_names (table : SymbolTable) (parent : Option ScopeId) : (table.createScope parent).2.names = table.names := by
  rcases create_cases table parent with ⟨_, _, _, failed⟩ | ⟨_, created⟩
  · rw [failed]
  · rw [created]
    dsimp only
    rw [(relink_frame _ parent _).2.2, place]
    cases table.free <;> rfl

-- What a creation that succeeds does to the links.
section Create

variable (table : SymbolTable) (parent : Option ScopeId) (allocated : table.Allocated)
  (live : ∀ outer, parent = some outer → table.contains outer = true)
include allocated

theorem place_absent (scope : Scope) (room : table.HasRoom) : table.contains (table.place scope).1 = false :=
  (not_contains_iff table _).mpr
    (next_absent table allocated.freeVacant _ (place_at_next table scope allocated.freeVacant room))

theorem create_parent (change : List ScopeId → List ScopeId) (id : ScopeId) :
    ((table.place { parent := parent }).2.relink parent change).parent? id =
      if table.HasRoom ∧ id = (table.place { parent := parent }).1 then parent else table.parent? id := by
  rw [relink_parent, parent?, place_scope table _ allocated.freeVacant]
  split
  · rfl
  · rfl

include live in
theorem create_children (change : List ScopeId → List ScopeId) (id : ScopeId) :
    ((table.place { parent := parent }).2.relink parent change).children id =
      if table.HasRoom ∧ id = (table.place { parent := parent }).1 then [] else
        if parent = some id then change (table.children id) else table.children id := by
  have stillLive : ∀ outer, parent = some outer → (table.place { parent := parent }).2.contains outer = true := by
    intro outer above
    obtain ⟨around, read⟩ := (contains_iff table outer).mp (live outer above)
    exact contains_of_scope _ outer around (place_keeps table _ allocated.freeVacant outer around read)
  rw [relink_children _ _ _ stillLive, children, place_scope table _ allocated.freeVacant]
  by_cases fresh : table.HasRoom ∧ id = (table.place { parent := parent }).1
  · have root : parent ≠ some id := fun above =>
      live_not_fresh table _ (place_absent table allocated { parent := parent }) id (live id above) fresh
    rw [if_pos fresh, if_pos fresh, if_neg root]
  · rw [if_neg fresh, if_neg fresh]
    rfl

theorem place_inside (scope : Scope) : (table.place scope).1.slot < (table.place scope).2.slots.size := by
  have taken := place_slot table scope allocated.freeVacant table.nextSlot
  rw [if_pos rfl] at taken
  have bound := (Array.getElem?_eq_some_iff.mp taken).1
  refine Nat.lt_of_le_of_lt ?_ bound
  rw [ScopeId.slot, place_index table scope allocated.freeVacant, UInt32.toNat_ofNat']
  exact Nat.mod_le _ _

end Create

theorem create_sound (table : SymbolTable) (parent : Option ScopeId) (sound : table.Sound) :
    (table.createScope parent).2.Sound := by
  rcases create_cases table parent with ⟨outer, _, _, failed⟩ | ⟨live, created⟩
  · rw [failed]
    exact sound
  · rw [created]
    dsimp only
    have placedAllocated := allocated_place table { parent := parent } sound.allocated
    have placedNamed := named_place table { parent := parent } sound.allocated sound.named rfl
    refine ⟨allocated_relink _ parent _ placedAllocated, ?_, named_relink _ parent _ placedNamed⟩
    apply linked_adopt table _ parent _ (place_absent table sound.allocated _) live
      (create_parent table parent sound.allocated _) (create_children table parent sound.allocated live _) _ _ sound.linked
    · rw [relink_size]
      exact place_size_le table _ sound.allocated.freeVacant
    · rw [relink_size]
      exact place_inside table sound.allocated _

theorem create_nested (table : SymbolTable) (parent : Option ScopeId) (sound : table.Sound) (nested : table.Nested)
    (small : (table.createScope parent).2.slots.size ≤ UInt32.size) : (table.createScope parent).2.Nested := by
  rcases create_cases table parent with ⟨outer, _, _, failed⟩ | ⟨live, created⟩
  · rw [failed]
    exact nested
  · rw [created] at small ⊢
    dsimp only at small ⊢
    rw [relink_size] at small
    have room := room_of_size table _ sound.allocated.freeVacant small
    exact nested_adopt table _ parent _ (place_absent table sound.allocated _)
      (create_parent table parent sound.allocated _) (create_children table parent sound.allocated live _) room nested

theorem hide_sound (table : SymbolTable) (id : ScopeId) (sound : table.Sound) : (table.hide id).2.Sound :=
  ⟨allocated_modify table id _ sound.allocated,
    linked_modify table id _ (fun _ => rfl) (fun _ => rfl) sound.linked,
    named_modify table id _ sound.named (sound.named.wellNamed id)⟩

theorem keys_set_value (scope : Scope) (index : Nat) (value : Double) :
    keys { scope with records := scope.records.modify index fun record => { record with value := value } } =
      keys scope := by
  simp only [keys]
  apply List.ext_getElem?
  intro position
  rw [List.getElem?_map, List.getElem?_map, List.getElem?_modify]
  cases scope.records[position]? with
  | none => rfl
  | some record => by_cases same : index = position <;> simp [same]

theorem set_value_sound (table : SymbolTable) (handle : Handle) (value : Double) (sound : table.Sound) :
    (table.setValue handle value).2.Sound := by
  refine ⟨allocated_modify table handle.scope _ sound.allocated,
    linked_modify table handle.scope _ (fun _ => rfl) (fun _ => rfl) sound.linked,
    named_modify table handle.scope _ sound.named ?_⟩
  intro scope read
  rw [keys_set_value]
  exact sound.named.wellNamed handle.scope scope read

theorem index_iff_key (scope : Scope) (key : NamePool.Key) : scope.indexOf? key = none ↔ key ∉ keys scope := by
  rw [Scope.indexOf?, List.findIdx?_eq_none_iff, keys, List.mem_map]
  constructor
  · rintro absent ⟨record, member, same⟩
    simpa [same] using absent record member
  · intro absent record member
    rw [beq_eq_false_iff_ne]
    exact fun same => absent ⟨record, member, same⟩

def declare (key : NamePool.Key) (type : ValueType) (scope : Scope) : Scope :=
  { scope with records := scope.records ++ [⟨key, type, Double.zero⟩] }

theorem keys_declare (key : NamePool.Key) (type : ValueType) (scope : Scope) :
    keys (declare key type scope) = keys scope ++ [key] := by
  simp [keys, declare]

theorem insert_cases (table : SymbolTable) (id : ScopeId) (name : String) (type : ValueType) (named : table.Named) :
    (table.scope? id = none ∧ table.insert id name type = (.error (.unknownScope id), table)) ∨
    (∃ scope key, table.scope? id = some scope ∧ table.names.find? name = some key ∧ key ∈ keys scope ∧
      table.insert id name type = (.error (.duplicateName name), table)) ∨
    ∃ scope, table.scope? id = some scope ∧ (table.names.intern name).1 ∉ keys scope ∧
      table.insert id name type = (.ok ⟨id, scope.size⟩,
        { table with names := (table.names.intern name).2 }.modifyScope id
          (declare (table.names.intern name).1 type)) := by
  cases read : table.scope? id with
  | none => exact Or.inl ⟨rfl, by simp [insert, read]⟩
  | some scope =>
      refine Or.inr ?_
      cases found : table.names.find? name with
      | none =>
          refine Or.inr ⟨scope, rfl, ?_, by simp only [insert, read, found]; rfl⟩
          intro member
          obtain ⟨old, named⟩ := (named.wellNamed id scope read).2 _ member
          have bound := (List.getElem?_eq_some_iff.mp named).1
          simp [NamePool.intern, found] at bound
      | some key =>
          have same : (table.names.intern name).1 = key := by simp [NamePool.intern, found]
          cases position : scope.indexOf? key with
          | none =>
              refine Or.inr ⟨scope, rfl, ?_, by simp only [insert, read, found, Option.bind_some, position]; rfl⟩
              rw [same]
              exact (index_iff_key scope key).mp position
          | some index =>
              refine Or.inl ⟨scope, key, rfl, rfl, ?_, by simp [insert, read, found, position]⟩
              by_contra absent
              rw [(index_iff_key scope key).mpr absent] at position
              cases position

theorem insert_failed (table : SymbolTable) (named : table.Named) (id : ScopeId) (name : String) (type : ValueType)
    (error : TableError) (failed : (table.insert id name type).1 = .error error) : (table.insert id name type).2 = table := by
  rcases insert_cases table id name type named with ⟨_, done⟩ | ⟨_, _, _, _, _, done⟩ | ⟨_, _, _, done⟩
  · rw [done]
  · rw [done]
  · rw [done] at failed
    cases failed

theorem insert_succeeded (table : SymbolTable) (named : table.Named) (id : ScopeId) (name : String) (type : ValueType)
    (handle : Handle) (inserted : (table.insert id name type).1 = .ok handle) :
    (table.insert id name type).2 =
      { table with names := (table.names.intern name).2 }.modifyScope id (declare (table.names.intern name).1 type) := by
  rcases insert_cases table id name type named with ⟨_, done⟩ | ⟨_, _, _, _, _, done⟩ | ⟨_, _, _, done⟩
  · rw [done] at inserted
    cases inserted
  · rw [done] at inserted
    cases inserted
  · rw [done]

theorem insert_next (table : SymbolTable) (named : table.Named) (id : ScopeId) (name : String) (type : ValueType) :
    (table.insert id name type).2 = table ∨
    (table.insert id name type).2 =
      { table with names := (table.names.intern name).2 }.modifyScope id (declare (table.names.intern name).1 type) := by
  cases result : (table.insert id name type).1 with
  | error error => exact Or.inl (insert_failed table named id name type error result)
  | ok handle => exact Or.inr (insert_succeeded table named id name type handle result)

theorem well_named_intern (pool : NamePool) (name : String) (keys : List NamePool.Key)
    (named : WellNamed pool keys) : WellNamed (pool.intern name).2 keys := by
  refine ⟨named.1, fun key member => ?_⟩
  obtain ⟨old, resolved⟩ := named.2 key member
  exact ⟨old, NamePool.intern_keeps_name pool name old key resolved⟩

theorem insert_sound (table : SymbolTable) (id : ScopeId) (name : String) (type : ValueType)
    (sound : table.Sound) : (table.insert id name type).2.Sound := by
  rcases insert_cases table id name type sound.named with ⟨_, failed⟩ | ⟨_, _, _, _, _, failed⟩ | ⟨scope, read, fresh, inserted⟩
  · rw [failed]
    exact sound
  · rw [failed]
    exact sound
  · rw [inserted]
    -- The pool grows first. No scope changes by that, and every key keeps its name.
    have grown : Sound { table with names := (table.names.intern name).2 } := by
      refine ⟨⟨sound.allocated.counted, sound.allocated.freeDistinct, sound.allocated.freeVacant⟩, ?_, ?_⟩
      · exact linked_congr table _ rfl (fun _ => rfl) (fun _ => rfl) sound.linked
      · exact ⟨NamePool.intern_distinct table.names name sound.named.distinct, fun index generation held slot =>
          well_named_intern table.names name _ (sound.named.slots index generation held slot)⟩
    refine ⟨allocated_modify _ id _ grown.allocated,
      linked_modify _ id _ (fun _ => rfl) (fun _ => rfl) grown.linked, named_modify _ id _ grown.named ?_⟩
    intro held before
    have same : held = scope := Option.some.inj (before.symm.trans read)
    obtain ⟨distinct, resolved⟩ := grown.named.wellNamed id held before
    rw [keys_declare]
    refine ⟨?_, ?_⟩
    · refine List.nodup_append.mpr ⟨distinct, List.nodup_singleton _, ?_⟩
      intro key member other isFresh equal
      rw [List.mem_singleton.mp isFresh] at equal
      rw [equal, same] at member
      exact fresh member
    · intro key member
      rcases List.mem_append.mp member with old | new
      · exact resolved key old
      · rw [List.mem_singleton.mp new]
        exact ⟨name, NamePool.intern_name table.names name⟩

end Frontend.SymbolTable
