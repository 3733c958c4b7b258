import Frontend.Proofs.SymbolTable.Consistency
import Frontend.Proofs.SymbolTable.Staleness

set_option autoImplicit false

namespace Frontend

namespace SymbolTable

-- No slot is lost: each one holds a live scope or waits to be used again.
def Balanced (table : SymbolTable) : Prop := table.slots.size = table.live + table.free.length

theorem spared_order (table : SymbolTable) (top : ScopeId) (order : List ScopeId) (spared : table.Spares (.destroy top))
    (gone : ∀ id, id ∈ order ↔ table.contains id = true ∧ (table.destroy top).2.contains id = false) :
    order.filter (fun id => id.generation < Slot.lastGeneration) = order := by
  rw [List.filter_eq_self]
  intro id member
  exact decide_eq_true (spared id ((gone id).mp member).1 ((gone id).mp member).2)

theorem perform_balanced (table : SymbolTable) (operation : Operation) (sound : table.Sound)
    (spared : table.Spares operation) (balanced : table.Balanced) :
    (table.perform operation).2.Balanced ∧
      (table.perform operation).2.slots.size = max table.slots.size (table.perform operation).2.live := by
  unfold Balanced at balanced ⊢
  cases perform_arena table operation sound with
  | kept size free live _ =>
      rw [size, free, live]
      omega
  | reused id size free live _ _ =>
      rw [free, List.length_cons] at balanced
      omega
  | grown size full free live _ =>
      rw [full, List.length_nil] at balanced
      rw [free, List.length_nil]
      omega
  | released top order destruction gone size free live _ =>
      subst destruction
      rw [spared_order table top order spared gone] at free
      rw [size, free, List.length_append, List.length_reverse, List.length_map]
      omega

-- The largest number of live scopes at any point of a run.
def peak (table : SymbolTable) : List Operation → Nat
  | [] => table.scopeCount
  | operation :: operations => max table.scopeCount ((table.perform operation).2.peak operations)

theorem count_le_peak (table : SymbolTable) (operations : List Operation) : table.live ≤ table.peak operations := by
  cases operations with
  | nil => exact Nat.le_refl _
  | cons operation operations => exact Nat.le_max_left _ _

theorem after_size (table : SymbolTable) (operations : List Operation) (sound : table.Sound)
    (spared : table.SparesAll operations) (balanced : table.Balanced) :
    (table.after operations).slots.size = max table.slots.size (table.peak operations) := by
  induction operations generalizing table with
  | nil =>
      rw [Balanced] at balanced
      rw [after, peak, scopeCount]
      omega
  | cons operation operations ih =>
      obtain ⟨nextBalanced, size⟩ := perform_balanced table operation sound spared.1 balanced
      have grown := ih _ (perform_sound table operation sound) spared.2 nextBalanced
      have highest := count_le_peak (table.perform operation).2 operations
      rw [Balanced] at balanced
      rw [after, peak, scopeCount, grown]
      omega

theorem issued_inside (table : SymbolTable) (operations : List Operation) (sound : table.Sound) (id : ScopeId)
    (member : id ∈ table.issued operations) : id.slot < (table.after operations).slots.size := by
  induction operations generalizing table with
  | nil => simp [issued, outcomes] at member
  | cons operation operations ih =>
      have nextSound := perform_sound table operation sound
      rw [issued_cons, List.mem_append, Option.mem_toList] at member
      rcases member with made | later
      · exact Nat.lt_of_lt_of_le (perform_made_inside table operation sound id made) (after_size_le _ operations nextSound)
      · exact ih _ nextSound later

-- As long as nothing is destroyed, new scopes take the free slots from the front.
theorem issued_from_free (table : SymbolTable) (operations : List Operation) (sound : table.Sound)
    (lasting : ∀ top, Operation.destroy top ∉ operations) :
    ((table.issued operations).map ScopeId.index).take table.free.length = table.free.take (table.issued operations).length := by
  induction operations generalizing table with
  | nil => simp [issued, outcomes]
  | cons operation operations ih =>
      have rest := ih _ (perform_sound table operation sound) (fun top member => lasting top (List.mem_cons_of_mem _ member))
      rw [issued_cons]
      cases perform_arena table operation sound with
      | kept _ free _ nothing =>
          rw [free] at rest
          simpa [nothing] using rest
      | reused id _ free _ new _ =>
          rw [free, new]
          simpa using rest
      | grown _ full _ _ _ =>
          rw [full]
          simp
      | released top _ destruction _ _ _ _ _ =>
          subst destruction
          exact absurd List.mem_cons_self (lasting top)

theorem spared_append (table : SymbolTable) (earlier later : List Operation) :
    table.SparesAll (earlier ++ later) ↔ table.SparesAll earlier ∧ (table.after earlier).SparesAll later := by
  induction earlier generalizing table with
  | nil => simp [SparesAll, after]
  | cons operation earlier ih => simp [SparesAll, after, ih, and_assoc]

theorem reuse_released (table : SymbolTable) (top : ScopeId) (later : List Operation) (sound : table.Sound)
    (spared : table.Spares (.destroy top)) (lasting : ∀ other, Operation.destroy other ∉ later)
    (enough : ((table.destroy top).2.issued later).length = (table.destroy top).1) :
    (((table.destroy top).2.issued later).map ScopeId.slot).Nodup ∧
      ∀ index, index ∈ ((table.destroy top).2.issued later).map ScopeId.slot ↔
        ∃ id, table.contains id = true ∧ (table.destroy top).2.contains id = false ∧ id.slot = index := by
  obtain ⟨order, gone, count, _, free⟩ := destroy_frees table top sound
  have nextSound := destroy_sound table top sound
  have taken := issued_from_free (table.destroy top).2 later nextSound lasting
  rw [spared_order table top order spared gone] at free
  have indices : ((table.destroy top).2.issued later).map ScopeId.index = (order.map ScopeId.index).reverse := by
    have long : ((table.destroy top).2.issued later).length ≤ (table.destroy top).2.free.length := by
      rw [free, List.length_append, List.length_reverse, List.length_map]
      omega
    rw [List.take_of_length_le (by rwa [List.length_map]), free, enough, count,
      List.take_left' (by rw [List.length_reverse, List.length_map])] at taken
    exact taken
  have slots : ((table.destroy top).2.issued later).map ScopeId.slot = (order.map ScopeId.slot).reverse := by
    have again := congrArg (List.map UInt32.toNat) indices
    rw [List.map_map, List.map_reverse, List.map_map] at again
    exact again
  refine ⟨?_, ?_⟩
  · have distinct := nextSound.allocated.freeDistinct
    rw [free, List.nodup_append, ← indices] at distinct
    have apart := distinct.1.map (fun _ _ => UInt32.toNat_inj.mp)
    rw [List.map_map] at apart
    exact apart
  · intro index
    rw [slots]
    simp only [List.mem_reverse, List.mem_map, gone, and_assoc]

theorem slots_never_leak (operations : List Operation) (spared : empty.SparesAll operations) :
    (∀ earlier, earlier <+: operations → (empty.after earlier).slots.size = empty.peak earlier ∧
      ∀ id ∈ empty.issued earlier, id.slot < empty.peak earlier) ∧
    ∀ earlier top later, earlier ++ .destroy top :: later <+: operations → (∀ other, Operation.destroy other ∉ later) →
      ((empty.after (earlier ++ [.destroy top])).issued later).length = ((empty.after earlier).destroy top).1 →
      (((empty.after (earlier ++ [.destroy top])).issued later).map ScopeId.slot).Nodup ∧
        ∀ index, index ∈ ((empty.after (earlier ++ [.destroy top])).issued later).map ScopeId.slot ↔
          ∃ id, (empty.after earlier).contains id = true ∧
            (empty.after (earlier ++ [.destroy top])).contains id = false ∧ id.slot = index := by
  refine ⟨?_, ?_⟩
  · rintro earlier ⟨rest, rfl⟩
    have size := after_size empty earlier empty_sound ((spared_append empty earlier rest).mp spared).1 rfl
    have exact : (empty.after earlier).slots.size = empty.peak earlier := size.trans (Nat.zero_max _)
    refine ⟨exact, fun id member => ?_⟩
    rw [← exact]
    exact issued_inside empty earlier empty_sound id member
  · rintro earlier top later ⟨rest, rfl⟩ lasting enough
    rw [List.append_assoc] at spared
    have sparing := ((spared_append empty earlier _).mp spared).2.1
    rw [after_append] at enough ⊢
    exact reuse_released (empty.after earlier) top later (after_sound empty earlier empty_sound) sparing lasting enough

-- The destruction of #1.0 frees the slots 1 and 2, and the two creations after it take them again.
theorem slots_never_leak_recycling :
    empty.SparesAll recycling ∧ (empty.after recycling).slots.size = empty.peak recycling ∧ empty.peak recycling = 3 ∧
      ∀ index, index ∈ ((empty.after (recycling.take 4 ++ [.destroy ⟨1, 0⟩])).issued (recycling.drop 5)).map ScopeId.slot ↔
        ∃ id, (empty.after (recycling.take 4)).contains id = true ∧
          (empty.after (recycling.take 4 ++ [.destroy ⟨1, 0⟩])).contains id = false ∧ id.slot = index := by
  have spared : empty.SparesAll recycling :=
    spares_of_length empty recycling empty_sound 0 (by simp [empty, generationAt]) (by decide)
  have lasting : ∀ other, Operation.destroy other ∉ recycling.drop 5 := by simp [recycling]
  have enough : ((empty.after (recycling.take 4 ++ [.destroy ⟨1, 0⟩])).issued (recycling.drop 5)).length =
      ((empty.after (recycling.take 4)).destroy ⟨1, 0⟩).1 := by cbv
  have highest : empty.peak recycling = 3 := by cbv
  obtain ⟨sizes, slots⟩ := slots_never_leak recycling spared
  exact ⟨spared, (sizes recycling (List.prefix_refl _)).1, highest,
    (slots (recycling.take 4) ⟨1, 0⟩ (recycling.drop 5) (List.prefix_refl _) lasting enough).2⟩

end SymbolTable

end Frontend
