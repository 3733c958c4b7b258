import Frontend.Proofs.SymbolTable.Destruction

set_option autoImplicit false

namespace Frontend.SymbolTable

def issued (table : SymbolTable) (operations : List Operation) : List ScopeId :=
  (table.outcomes operations).filterMap Outcome.newScope?

-- Every use of the id fails, and no attempt changes the table.
structure Inert (table : SymbolTable) (id : ScopeId) : Prop where
  absent : table.contains id = false
  noRecord : ∀ index, table.record? ⟨id, index⟩ = none ∧ table.nameOf? ⟨id, index⟩ = none ∧ table.typeOf? ⟨id, index⟩ = none
  noStore : ∀ index value, table.setValue ⟨id, index⟩ value = (false, table)
  notFound : ∀ name, table.lookupLocal id name = none ∧ table.lookupLexical id name = none
  noInsert : ∀ name type, table.insert id name type = (.error (.unknownScope id), table)
  noCreate : table.createScope (some id) = (.error (.unknownScope id), table)
  noHide : table.hide id = (false, table)
  noDestroy : table.destroy id = (0, table)

theorem absent_inert (table : SymbolTable) (id : ScopeId) (absent : table.contains id = false) : table.Inert id := by
  have gone := (not_contains_iff table id).mp absent
  have noRecord : ∀ index, table.record? ⟨id, index⟩ = none := by
    intro index
    simp only [record?, gone]
  refine ⟨absent, ?_, ?_, ?_, ?_, ?_, ?_, destroy_absent table id absent⟩
  · intro index
    simp [nameOf?, typeOf?, noRecord]
  · intro index value
    simp [setValue, noRecord, modify_absent table id _ gone]
  · intro name
    rw [lookupLocal, lookupLexical]
    cases table.names.find? name with
    | none => exact ⟨rfl, rfl⟩
    | some key => cases steps : table.slots.size <;> simp [climb, gone]
  · intro name type
    simp [insert, gone]
  · simp [createScope, absent]
  · simp [hide, absent, modify_absent table id _ gone]

-- An id is spent when its slot has gone on to a later generation, or stays empty and out of use for good.
def Spent (table : SymbolTable) (id : ScopeId) : Prop :=
  ∃ generation, table.generationAt id.slot = some generation ∧
    (id.generation < generation ∨ id.generation = generation ∧ table.Vacant id.slot ∧ id.slot ∉ table.freeSlots)

def Issued (table : SymbolTable) (id : ScopeId) : Prop := table.contains id = true ∨ table.Spent id

theorem spent_absent (table : SymbolTable) (id : ScopeId) (spent : table.Spent id) : table.contains id = false := by
  obtain ⟨generation, current, passed⟩ := spent
  rw [← Bool.not_eq_true, contains_iff_occupied]
  rintro ⟨same, occupied⟩
  rw [current] at same
  cases same
  rcases passed with earlier | ⟨_, vacant, _⟩
  · exact Nat.lt_irrefl _ earlier
  · exact occupied vacant

section Step

variable (table : SymbolTable) (operation : Operation) (sound : table.Sound) (id : ScopeId)
include sound

theorem perform_spent (spent : table.Spent id) : (table.perform operation).2.Spent id := by
  obtain ⟨generation, current, passed⟩ := spent
  cases perform_change table operation sound id.slot with
  | kept same sameVacant sameFree =>
      refine ⟨generation, same.trans current, ?_⟩
      rw [sameVacant, sameFree]
      exact passed
  | taken given before after _ _ =>
      rcases before with ⟨new, _⟩ | ⟨old, _, free⟩
      · rw [current] at new
        cases new
      · rw [current] at old
        cases old
        rcases passed with earlier | ⟨_, _, retired⟩
        · exact ⟨generation, after, Or.inl earlier⟩
        · exact absurd free retired
  | released other _ here _ before after _ _ =>
      obtain ⟨old, occupied⟩ := (contains_iff_occupied table other).mp before
      rw [← here] at old occupied
      rw [current] at old
      cases old
      rcases passed with earlier | ⟨_, vacant, _⟩
      · refine ⟨_, after, Or.inl ?_⟩
        simp only [Slot.vacate]
        split <;> omega
      · exact absurd vacant occupied

-- A scope is lost in a destruction only, and its slot is then the next generation's or nobody's.
theorem perform_lost (live : table.contains id = true) (gone : (table.perform operation).2.contains id = false) :
    (∃ top, operation = .destroy top) ∧
      (table.perform operation).2.generationAt id.slot = some (Slot.vacate ⟨id.generation, none⟩).generation ∧
      (table.perform operation).2.Vacant id.slot ∧
      (id.slot ∈ (table.perform operation).2.freeSlots ↔ id.generation < Slot.lastGeneration) := by
  obtain ⟨current, occupied⟩ := (contains_iff_occupied table id).mp live
  cases perform_change table operation sound id.slot with
  | kept same sameVacant _ =>
      rw [(contains_iff_occupied _ id).mpr ⟨same.trans current, sameVacant.not.mpr occupied⟩] at gone
      cases gone
  | taken _ before _ _ _ =>
      rcases before with ⟨new, _⟩ | ⟨_, vacant, _⟩
      · rw [current] at new
        cases new
      · exact absurd vacant occupied
  | released other top here destruction before after vacant freed =>
      rw [← live_same_slot table id other live before here] at after freed
      exact ⟨⟨top, destruction⟩, after, vacant, freed⟩

theorem perform_retires (live : table.contains id = true) (gone : (table.perform operation).2.contains id = false) :
    (table.perform operation).2.Spent id := by
  obtain ⟨_, after, vacant, freed⟩ := perform_lost table operation sound id live gone
  refine ⟨_, after, ?_⟩
  by_cases early : id.generation < Slot.lastGeneration
  · simp only [Slot.vacate, if_pos early]
    exact Or.inl (Nat.lt_succ_self _)
  · simp only [Slot.vacate, if_neg early]
    exact Or.inr ⟨trivial, vacant, fun member => early (freed.mp member)⟩

theorem perform_issued (known : table.Issued id) : (table.perform operation).2.Issued id := by
  rcases known with live | spent
  · cases after : (table.perform operation).2.contains id with
    | true => exact Or.inl after
    | false => exact Or.inr (perform_retires table operation sound id live after)
  · exact Or.inr (perform_spent table operation sound id spent)

omit sound in
theorem perform_made (created : (table.perform operation).1.newScope? = some id) :
    ∃ parent change, (table.place { parent := parent }).1 = id ∧
      (table.perform operation).2 = (table.place { parent := parent }).2.relink parent change := by
  cases operation with
  | createScope parent =>
      rw [perform] at created ⊢
      rcases create_cases table parent with ⟨outer, _, _, failed⟩ | ⟨_, succeeded⟩
      · simp [failed, Outcome.newScope?] at created
      · rw [succeeded] at created ⊢
        exact ⟨parent, (· ++ [(table.place { parent := parent }).1]), by simpa [Outcome.newScope?] using created, rfl⟩
  | _ => simp [perform, Outcome.newScope?] at created

theorem perform_made_inside (created : (table.perform operation).1.newScope? = some id) :
    id.slot < (table.perform operation).2.slots.size := by
  obtain ⟨parent, change, same, next⟩ := perform_made table operation id created
  rw [next, relink_size, ← same]
  exact place_inside table sound.allocated _

theorem perform_fresh (room : table.HasRoom) (created : (table.perform operation).1.newScope? = some id) :
    ¬ table.Issued id ∧ (table.perform operation).2.contains id = true := by
  have vacancies := sound.allocated.freeVacant
  obtain ⟨parent, change, same, next⟩ := perform_made table operation id created
  have here : id.slot = table.nextSlot := same ▸ place_at_next table { parent := parent } vacancies room
  refine ⟨?_, ?_⟩
  · rintro (live | ⟨generation, current, passed⟩)
    · rw [(not_contains_iff table id).mpr (next_absent table vacancies id here)] at live
      cases live
    · rcases place_cases table { parent := parent } vacancies with
        ⟨_, atEnd, _⟩ | ⟨first, free, given, available, atFirst, empty, placed⟩
      · rw [here, atEnd] at current
        simp [generationAt] at current
      · rw [here, atFirst, generationAt, empty] at current
        cases current
        rcases passed with earlier | ⟨_, _, retired⟩
        · rw [← same, placed] at earlier
          exact Nat.lt_irrefl _ earlier
        · apply retired
          rw [here, atFirst, freeSlots, available]
          exact List.mem_cons_self
  · rw [next, relink_contains, contains, place_scope table _ vacancies, if_pos ⟨room, same.symm⟩]
    rfl

-- Without room the id given out is an old one. It may be that of a live scope, or it leads nowhere.
theorem perform_known (created : (table.perform operation).1.newScope? = some id) :
    (table.perform operation).2.Issued id := by
  by_cases room : table.HasRoom
  · exact Or.inl (perform_fresh table operation sound id room created).2
  · cases live : (table.perform operation).2.contains id with
    | true => exact Or.inl live
    | false =>
        obtain ⟨parent, change, same, next⟩ := perform_made table operation id created
        have noneFree : (table.perform operation).2.freeSlots = [] := by
          rw [next, freeSlots, (relink_frame _ parent change).1]
          simp [place, free_without_room table room]
        have bound := perform_made_inside table operation sound id created
        have current : (table.perform operation).2.generationAt id.slot =
            some ((table.perform operation).2.slots[id.slot].generation) := by
          rw [generationAt, Array.getElem?_eq_getElem bound]
          rfl
        refine Or.inr ⟨_, current, ?_⟩
        by_cases passed : id.generation < (table.perform operation).2.slots[id.slot].generation
        · exact Or.inl passed
        · have first : id.generation = 0 := by
            rw [← same, (place_crowded table sound room { parent := parent }).1]
          have zero : id.generation = (table.perform operation).2.slots[id.slot].generation := by omega
          refine Or.inr ⟨zero, ?_, by simp [noneFree]⟩
          by_contra occupied
          rw [(contains_iff_occupied _ id).mpr ⟨zero ▸ current, occupied⟩] at live
          cases live

end Step

theorem after_spent (table : SymbolTable) (operations : List Operation) (sound : table.Sound) (id : ScopeId)
    (spent : table.Spent id) : (table.after operations).Spent id := by
  induction operations generalizing table with
  | nil => exact spent
  | cons operation operations ih =>
      exact ih (table.perform operation).2 (perform_sound table operation sound) (perform_spent table operation sound id spent)

-- A scope that is there at the end of a run was there all the time.
theorem perform_live_of_after (table : SymbolTable) (operation : Operation) (sound : table.Sound) (id : ScopeId)
    (live : table.contains id = true) (operations : List Operation)
    (stays : ((table.perform operation).2.after operations).contains id = true) :
    (table.perform operation).2.contains id = true := by
  by_contra gone
  have spent := perform_retires table operation sound id live (by simpa using gone)
  rw [spent_absent _ id (after_spent _ operations (perform_sound table operation sound) id spent)] at stays
  cases stays

theorem issued_cons (table : SymbolTable) (operation : Operation) (operations : List Operation) :
    table.issued (operation :: operations) =
      (table.perform operation).1.newScope?.toList ++ (table.perform operation).2.issued operations := by
  cases made : (table.perform operation).1.newScope? <;> simp [issued, outcomes, made]

theorem issued_distinct (table : SymbolTable) (operations : List Operation) (sound : table.Sound)
    (small : (table.after operations).slots.size ≤ UInt32.size) :
    (table.issued operations).Nodup ∧ ∀ id ∈ table.issued operations, ¬ table.Issued id := by
  induction operations generalizing table with
  | nil => exact ⟨List.nodup_nil, by simp [issued, outcomes]⟩
  | cons operation operations ih =>
      have nextSound := perform_sound table operation sound
      obtain ⟨distinct, later⟩ := ih (table.perform operation).2 nextSound small
      have kept : ∀ id ∈ (table.perform operation).2.issued operations, ¬ table.Issued id := fun id member known =>
        later id member (perform_issued table operation sound id known)
      rw [issued_cons]
      cases created : (table.perform operation).1.newScope? with
      | none => exact ⟨distinct, kept⟩
      | some id =>
          obtain ⟨parent, change, _, next⟩ := perform_made table operation id created
          have room : table.HasRoom := by
            apply room_of_size table { parent := parent } sound.allocated.freeVacant
            rw [← relink_size _ parent change, ← next]
            exact Nat.le_trans (after_size_le _ operations nextSound) small
          obtain ⟨fresh, live⟩ := perform_fresh table operation sound id room created
          refine ⟨List.nodup_cons.mpr ⟨fun member => later id member (Or.inl live), distinct⟩, ?_⟩
          intro other member
          rcases List.mem_cons.mp member with same | old
          · rw [same]
            exact fresh
          · exact kept other old

-- The ids that the slots of an arena are opened with, from the slot `first` on.
def openings (first count : Nat) : List ScopeId := (List.range' first count).map fun index => ⟨UInt32.ofNat index, 0⟩

theorem openings_issued (table : SymbolTable) (operations : List Operation) (sound : table.Sound) :
    (openings table.slots.size ((table.after operations).slots.size - table.slots.size)).Sublist (table.issued operations) := by
  induction operations generalizing table with
  | nil => simp [after, openings]
  | cons operation operations ih =>
      have nextSound := perform_sound table operation sound
      have rest := ih _ nextSound
      have grown := after_size_le _ operations nextSound
      rw [issued_cons, after]
      cases perform_arena table operation sound with
      | kept size _ _ _ =>
          rw [size] at rest
          exact rest.trans (List.sublist_append_right _ _)
      | reused _ size _ _ _ _ =>
          rw [size] at rest
          exact rest.trans (List.sublist_append_right _ _)
      | released _ _ _ _ size _ _ _ =>
          rw [size] at rest
          exact rest.trans (List.sublist_append_right _ _)
      | grown size _ _ _ new =>
          rw [size] at rest grown
          have longer : ((table.perform operation).2.after operations).slots.size - table.slots.size =
              ((table.perform operation).2.after operations).slots.size - (table.slots.size + 1) + 1 := by omega
          rw [longer, openings, List.range'_succ, List.map_cons, new]
          exact rest.cons_cons _

theorem openings_repeat (count : Nat) (wide : UInt32.size < count) : ¬ (openings 0 count).Nodup := by
  intro distinct
  have same : (openings 0 count)[0]? = (openings 0 count)[UInt32.size]? := by
    rw [openings, List.getElem?_map, List.getElem?_map, List.getElem?_range' (by omega), List.getElem?_range' wide]
    simp [UInt32.ofNat_size]
  have first : 0 < (openings 0 count).length := by
    simp only [openings, List.length_map, List.length_range']
    omega
  exact absurd ((List.getElem?_inj first distinct).mp same) (by decide)

theorem issued_distinct_iff (operations : List Operation) :
    (empty.issued operations).Nodup ↔ (empty.after operations).slots.size ≤ UInt32.size := by
  constructor
  · intro distinct
    by_contra crowded
    exact openings_repeat _ (Nat.lt_of_not_le crowded) (distinct.sublist (openings_issued empty operations empty_sound))
  · intro small
    exact (issued_distinct empty operations empty_sound small).1

theorem stale_ids_stay_inert (operations : List Operation) :
    ((empty.issued operations).Nodup ↔ (empty.after operations).slots.size ≤ UInt32.size) ∧
    ∀ earlier top id later, operations = earlier ++ .destroy top :: later → (empty.after earlier).contains id = true →
      (empty.after earlier).Encloses top id → (empty.after operations).Inert id := by
  refine ⟨issued_distinct_iff operations, ?_⟩
  rintro earlier top id later rfl live enclosed
  have sound := after_sound empty earlier empty_sound
  have topLive := linked_encloses_live _ sound.linked top id enclosed live
  have gone : ((empty.after earlier).perform (.destroy top)).2.contains id = false :=
    (not_contains_iff _ id).mpr (destroy_inside _ top topLive sound.linked id enclosed)
  have spent := perform_retires _ (.destroy top) sound id live gone
  rw [after_append]
  exact absent_inert _ id (spent_absent _ id (after_spent _ later (perform_sound _ _ sound) id spent))

-- The slot of the released #2.0 holds #2.1 at the end of the run.
theorem stale_ids_stay_inert_recycling :
    (empty.after (recycling.take 4)).contains ⟨2, 0⟩ = true ∧ (empty.after (recycling.take 4)).Encloses ⟨1, 0⟩ ⟨2, 0⟩ ∧
      (empty.after recycling).contains ⟨2, 1⟩ = true ∧ (empty.issued recycling).Nodup ∧
      (empty.after recycling).Inert ⟨2, 0⟩ := by
  have live : (empty.after (recycling.take 4)).contains ⟨2, 0⟩ = true := by cbv
  have link : (empty.after (recycling.take 4)).parent? ⟨2, 0⟩ = some ⟨1, 0⟩ := by cbv
  have reused : (empty.after recycling).contains ⟨2, 1⟩ = true := by cbv
  have size : (empty.after recycling).slots.size = 3 := by cbv
  obtain ⟨distinct, inert⟩ := stale_ids_stay_inert recycling
  exact ⟨live, .single link, reused, distinct.mpr (by rw [size]; decide),
    inert (recycling.take 4) ⟨1, 0⟩ ⟨2, 0⟩ (recycling.drop 5) rfl live (.single link)⟩

-- One root more than there are indices, and the first id is given out a second time.
theorem ids_given_twice :
    ¬ (empty.issued (List.replicate (UInt32.size + 1) (.createScope none))).Nodup := by
  rw [issued_distinct_iff, (after_roots empty rfl (UInt32.size + 1)).2.2.1]
  decide

end Frontend.SymbolTable
