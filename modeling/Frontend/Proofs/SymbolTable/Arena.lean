import Frontend.Proofs.SymbolTable.Run

set_option autoImplicit false

namespace Frontend

def Outcome.newScope? : Outcome → Option ScopeId
  | .created (.ok id) => some id
  | _ => none

namespace SymbolTable

-- All that one operation can do to the arena as a whole, and the id that it gives out.
inductive ArenaChange (table : SymbolTable) (operation : Operation) (next : SymbolTable) (made : Option ScopeId) : Prop where
  | kept (size : next.slots.size = table.slots.size) (free : next.free = table.free) (live : next.live = table.live)
      (nothing : made = none)
  | reused (id : ScopeId) (size : next.slots.size = table.slots.size) (free : table.free = id.index :: next.free)
      (live : next.live = table.live + 1) (new : made = some id) (inside : id.slot < next.slots.size)
  | grown (size : next.slots.size = table.slots.size + 1) (full : table.free = []) (free : next.free = [])
      (live : next.live = table.live + 1) (new : made = some ⟨UInt32.ofNat table.slots.size, 0⟩)
  | released (top : ScopeId) (order : List ScopeId) (destruction : operation = .destroy top)
      (gone : ∀ id, id ∈ order ↔ table.contains id = true ∧ next.contains id = false)
      (size : next.slots.size = table.slots.size)
      (free : next.free = ((order.filter fun id => id.generation < Slot.lastGeneration).map ScopeId.index).reverse ++ table.free)
      (live : next.live + order.length = table.live) (nothing : made = none)

theorem modify_arena (table : SymbolTable) (operation : Operation) (id : ScopeId) (change : Scope → Scope) :
    ArenaChange table operation (table.modifyScope id change) none := by
  obtain ⟨sameFree, sameLive, _⟩ := modify_frame table id change
  exact .kept (modify_size table id change) sameFree sameLive rfl

theorem create_arena (table : SymbolTable) (parent : Option ScopeId) (sound : table.Sound) :
    ArenaChange table (.createScope parent) (table.createScope parent).2
      (Outcome.created (table.createScope parent).1).newScope? := by
  have vacancies := sound.allocated.freeVacant
  rcases create_cases table parent with ⟨outer, _, _, failed⟩ | ⟨_, created⟩
  · rw [failed]
    exact .kept rfl rfl rfl rfl
  · rw [created]
    obtain ⟨sameFree, sameLive, _⟩ := relink_frame (table.place { parent := parent }).2 parent
      (· ++ [(table.place { parent := parent }).1])
    have sameSize := relink_size (table.place { parent := parent }).2 parent (· ++ [(table.place { parent := parent }).1])
    have placedLive := (place_frame table { parent := parent } vacancies).2
    rcases place_cases table { parent := parent } vacancies with
      ⟨full, _, placed⟩ | ⟨first, free, generation, available, _, empty, placed⟩
    · refine .grown ?_ full ?_ (sameLive.trans placedLive) ?_
      · rw [sameSize, placed]
        exact Array.size_push _
      · rw [sameFree, placed]
        exact full
      · rw [placed]
        rfl
    · have bound := (Array.getElem?_eq_some_iff.mp empty).1
      have size : (table.place { parent := parent }).2.slots.size = table.slots.size := by
        rw [placed]
        exact Array.size_setIfInBounds
      refine .reused (table.place { parent := parent }).1 (sameSize.trans size) ?_ (sameLive.trans placedLive) rfl ?_
      · rw [sameFree, placed, available]
      · rw [sameSize, size, placed]
        exact bound

-- The slots that a destruction frees come to the front. Of an id that leads nowhere it frees none.
theorem destroy_frees (table : SymbolTable) (top : ScopeId) (sound : table.Sound) :
    ∃ order : List ScopeId, (∀ id, id ∈ order ↔ table.contains id = true ∧ (table.destroy top).2.contains id = false) ∧
      (table.destroy top).1 = order.length ∧ (table.destroy top).2.live + order.length = table.live ∧
      (table.destroy top).2.free =
        ((order.filter fun id => id.generation < Slot.lastGeneration).map ScopeId.index).reverse ++ table.free := by
  cases live : table.contains top with
  | false =>
      rw [destroy_absent table top live]
      exact ⟨[], by simp, rfl, rfl, rfl⟩
  | true =>
      obtain ⟨order, swept, count, remaining⟩ := destroy_swept table top live
      obtain ⟨sameFree, _, _⟩ := relink_frame table (table.parent? top) (List.filter (· != top))
      refine ⟨order, ?_, count, (remaining sound.allocated).2, ?_⟩
      · intro id
        have after : (table.destroy top).2.contains id = if id ∈ order then false else table.contains id := by
          rw [contains, swept_scope _ _ [top] order swept]
          split
          · rfl
          · exact relink_contains table _ _ id
        have before := released_live table top _ order swept id
        rw [after]
        by_cases member : id ∈ order
        · simp [member, before member]
        · simp [member]
      · rw [swept.freed, detached, sameFree]

theorem perform_arena (table : SymbolTable) (operation : Operation) (sound : table.Sound) :
    ArenaChange table operation (table.perform operation).2 (table.perform operation).1.newScope? := by
  cases operation with
  | createScope parent => exact create_arena table parent sound
  | hide id => exact modify_arena table _ id _
  | destroy top =>
      obtain ⟨order, gone, _, live, free⟩ := destroy_frees table top sound
      exact .released top order rfl gone (destroy_size table top) free live rfl
  | insert id name type =>
      rw [perform]
      rcases insert_next table sound.named id name type with kept | written
      · rw [kept]
        exact .kept rfl rfl rfl rfl
      · rw [written]
        obtain ⟨sameFree, sameLive, _⟩ := modify_frame { table with names := (table.names.intern name).2 } id
          (declare (table.names.intern name).1 type)
        exact .kept (modify_size _ id _) sameFree sameLive rfl
  | setValue handle value => exact modify_arena table _ handle.scope _

theorem perform_size_le (table : SymbolTable) (operation : Operation) (sound : table.Sound) :
    table.slots.size ≤ (table.perform operation).2.slots.size := by
  cases perform_arena table operation sound <;> omega

theorem after_size_le (table : SymbolTable) (operations : List Operation) (sound : table.Sound) :
    table.slots.size ≤ (table.after operations).slots.size := by
  induction operations generalizing table with
  | nil => exact Nat.le_refl _
  | cons operation operations ih =>
      exact Nat.le_trans (perform_size_le table operation sound) (ih _ (perform_sound table operation sound))

theorem after_size_le_length (table : SymbolTable) (operations : List Operation) (sound : table.Sound) :
    (table.after operations).slots.size ≤ table.slots.size + operations.length := by
  induction operations generalizing table with
  | nil => exact Nat.le_refl _
  | cons operation operations ih =>
      have step : (table.perform operation).2.slots.size ≤ table.slots.size + 1 := by
        cases perform_arena table operation sound <;> omega
      have rest := ih _ (perform_sound table operation sound)
      rw [List.length_cons, after]
      omega

theorem perform_nested (table : SymbolTable) (operation : Operation) (sound : table.Sound) (nested : table.Nested)
    (small : (table.perform operation).2.slots.size ≤ UInt32.size) : (table.perform operation).2.Nested := by
  cases operation with
  | createScope parent => exact create_nested table parent sound nested small
  | hide id => exact nested_modify table id _ (fun _ => rfl) (fun _ => rfl) nested
  | destroy id => exact destroy_nested table id sound.linked nested
  | insert id name type =>
      rw [perform]
      rcases insert_next table sound.named id name type with kept | written
      · rw [kept]
        exact nested
      · rw [written]
        exact nested_modify _ id _ (fun _ => rfl) (fun _ => rfl)
          (nested_congr table _ (fun _ => rfl) (fun _ => rfl) nested)
  | setValue handle value => exact nested_modify table handle.scope _ (fun _ => rfl) (fun _ => rfl) nested

-- Slots only become more, so a bound on the last table of a run holds of all tables before it.
theorem after_nested (table : SymbolTable) (operations : List Operation) (sound : table.Sound) (nested : table.Nested)
    (small : (table.after operations).slots.size ≤ UInt32.size) : (table.after operations).Nested := by
  induction operations generalizing table with
  | nil => exact nested
  | cons operation operations ih =>
      have nextSound := perform_sound table operation sound
      have smaller := Nat.le_trans (after_size_le _ operations nextSound) small
      exact ih _ nextSound (perform_nested table operation sound nested smaller) small

theorem reached_nested (table : SymbolTable) (reached : table.Reached) (small : table.slots.size ≤ UInt32.size) :
    table.Nested := by
  obtain ⟨operations, rfl⟩ := reached
  refine after_nested empty operations empty_sound ⟨?_, ?_⟩ small <;> simp [empty, children, scope?]

end SymbolTable

end Frontend
