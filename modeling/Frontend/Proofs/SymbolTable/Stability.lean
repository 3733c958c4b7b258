import Frontend.Proofs.SymbolTable.Lookup

set_option autoImplicit false

namespace Frontend

-- The value that an operation with this outcome has stored through the handle, if it has.
def storedThrough? (handle : Handle) : Operation × Outcome → Option Double
  | (.setValue target value, .stored true) => if target = handle then some value else none
  | _ => none

namespace SymbolTable

def stores (table : SymbolTable) (handle : Handle) (operations : List Operation) : List Double :=
  (operations.zip (table.outcomes operations)).filterMap (storedThrough? handle)

def Keeps (table : SymbolTable) (id : ScopeId) : Operation → Prop
  | .destroy top => ¬ table.Encloses top id
  | _ => True

def KeepsAll (table : SymbolTable) (id : ScopeId) : List Operation → Prop
  | [] => True
  | operation :: operations => table.Keeps id operation ∧ (table.perform operation).2.KeepsAll id operations

-- With an index for every slot, a scope goes only together with one that encloses it.
theorem perform_keeps (table : SymbolTable) (operation : Operation) (sound : table.Sound) (nested : table.Nested)
    (id : ScopeId) (live : table.contains id = true) (kept : table.Keeps id operation) :
    (table.perform operation).2.contains id = true := by
  cases operation with
  | destroy top =>
      rw [perform]
      cases topLive : table.contains top with
      | false =>
          rw [destroy_absent table top topLive]
          exact live
      | true => exact (destroy_contains table top topLive sound.linked nested id).mpr ⟨live, kept⟩
  | _ =>
      by_contra gone
      obtain ⟨⟨top, destruction⟩, _⟩ := perform_lost table _ sound id live (by simpa using gone)
      cases destruction

theorem after_keeps (table : SymbolTable) (operations : List Operation) (sound : table.Sound) (nested : table.Nested)
    (small : (table.after operations).slots.size ≤ UInt32.size) (id : ScopeId) (live : table.contains id = true)
    (kept : table.KeepsAll id operations) : (table.after operations).contains id = true := by
  induction operations generalizing table with
  | nil => exact live
  | cons operation operations ih =>
      have nextSound := perform_sound table operation sound
      have smaller := Nat.le_trans (after_size_le _ operations nextSound) small
      exact ih _ nextSound (perform_nested table operation sound nested smaller) small
        (perform_keeps table operation sound nested id live kept.1) kept.2

theorem record_iff (table : SymbolTable) (handle : Handle) (record : Record) :
    table.record? handle = some record ↔
      ∃ scope, table.scope? handle.scope = some scope ∧ scope.records[handle.index]? = some record := by
  unfold record?
  cases table.scope? handle.scope with
  | none => simp
  | some scope => simp

theorem relink_record_same (table : SymbolTable) (parent : Option ScopeId) (change : List ScopeId → List ScopeId)
    (handle : Handle) : (table.relink parent change).record? handle = table.record? handle := by
  rw [record?, record?, relink_scope]
  by_cases same : parent = some handle.scope
  · rw [if_pos same]
    cases table.scope? handle.scope <;> rfl
  · rw [if_neg same]

section Record

variable (table : SymbolTable) (handle : Handle) (record : Record) (held : table.record? handle = some record)
include held

theorem modify_record (id : ScopeId) (change : Scope → Scope) (fresh : Record)
    (elsewhere : handle.scope ≠ id → fresh = record)
    (here : ∀ scope, handle.scope = id → scope.records[handle.index]? = some record →
      (change scope).records[handle.index]? = some fresh) :
    (table.modifyScope id change).record? handle = some fresh := by
  obtain ⟨scope, read, position⟩ := (record_iff table handle record).mp held
  rw [record_iff, modify_scope]
  by_cases same : handle.scope = id
  · rw [if_pos same, ← same, read]
    exact ⟨change scope, rfl, here scope same position⟩
  · rw [if_neg same, elsewhere same]
    exact ⟨scope, read, position⟩

theorem relink_record (parent : Option ScopeId) (change : List ScopeId → List ScopeId) :
    (table.relink parent change).record? handle = some record := by
  rw [relink_record_same]
  exact held

theorem place_record (scope : Scope) (vacancies : ∀ index ∈ table.free, table.Vacant index.toNat) :
    (table.place scope).2.record? handle = some record := by
  obtain ⟨old, read, position⟩ := (record_iff table handle record).mp held
  rw [record_iff]
  exact ⟨old, place_keeps table scope vacancies handle.scope old read, position⟩

theorem create_record (parent : Option ScopeId) (sound : table.Sound) :
    (table.createScope parent).2.record? handle = some record := by
  rcases create_cases table parent with ⟨_, _, _, failed⟩ | ⟨_, created⟩
  · rw [failed]
    exact held
  · rw [created]
    exact relink_record _ handle record
      (place_record table handle record held { parent := parent } sound.allocated.freeVacant) parent _

theorem destroy_record (top : ScopeId) (sound : table.Sound) (stays : (table.destroy top).2.contains handle.scope = true) :
    (table.destroy top).2.record? handle = some record := by
  cases live : table.contains top with
  | false =>
      rw [destroy_absent table top live]
      exact held
  | true =>
      have unmet := ((destroy_live_iff table top live sound.linked handle.scope).mp stays).2
      have linked := relink_record table handle record held (table.parent? top) (List.filter (· != top))
      rw [record_iff] at linked ⊢
      rw [destroy_unmet table top live sound.linked handle.scope unmet]
      exact linked

-- A new record goes behind the others, so no position moves.
theorem insert_record_kept (id : ScopeId) (name : String) (type : ValueType) (sound : table.Sound) :
    (table.insert id name type).2.record? handle = some record := by
  rcases insert_next table sound.named id name type with kept | written
  · rw [kept]
    exact held
  · rw [written]
    refine modify_record { table with names := (table.names.intern name).2 } handle record held id _ record (fun _ => rfl) ?_
    intro scope _ position
    have bound := (List.getElem?_eq_some_iff.mp position).1
    rw [declare, List.getElem?_append_left bound]
    exact position

theorem set_value_record (target : Handle) (value : Double) :
    (table.setValue target value).2.record? handle =
      some { record with value := if target = handle then value else record.value } := by
  refine modify_record table handle record held target.scope _ _ ?_ ?_
  · intro different
    have other : target ≠ handle := fun same => different (by rw [same])
    rw [if_neg other]
  · intro scope sameScope position
    rw [List.getElem?_modify, position]
    by_cases sameIndex : target.index = handle.index
    · have same : target = handle := by
        obtain ⟨targetScope, targetIndex⟩ := target
        obtain ⟨scopeId, index⟩ := handle
        rw [Handle.mk.injEq]
        exact ⟨sameScope.symm, sameIndex⟩
      rw [if_pos same]
      simp [sameIndex]
    · have other : target ≠ handle := fun same => sameIndex (by rw [same])
      rw [if_neg other]
      simp [sameIndex]

theorem perform_record (operation : Operation) (sound : table.Sound)
    (stays : (table.perform operation).2.contains handle.scope = true) :
    (table.perform operation).2.record? handle =
      some { record with value := (storedThrough? handle (operation, (table.perform operation).1)).getD record.value } := by
  cases operation with
  | createScope parent => exact create_record table handle record held parent sound
  | hide id => exact modify_record table handle record held id _ record (fun _ => rfl) (fun _ _ position => position)
  | destroy top => exact destroy_record table handle record held top sound stays
  | insert id name type => exact insert_record_kept table handle record held id name type sound
  | setValue target value =>
      rw [perform, set_value_record table handle record held target value]
      by_cases same : target = handle
      · subst same
        have done : (table.setValue target value).1 = true := by rw [setValue, held]; rfl
        simp [storedThrough?, done]
      · cases done : (table.setValue target value).1 <;> simp [storedThrough?, same]

theorem after_record (operations : List Operation) (sound : table.Sound)
    (stays : (table.after operations).contains handle.scope = true) :
    (table.after operations).record? handle =
      some { record with value := (table.stores handle operations).getLast?.getD record.value } := by
  induction operations generalizing table record with
  | nil => exact held
  | cons operation operations ih =>
      obtain ⟨scope, read, _⟩ := (record_iff table handle record).mp held
      have stillLive := perform_live_of_after table operation sound handle.scope
        (contains_of_scope table handle.scope scope read) operations stays
      have step := perform_record table handle record held operation sound stillLive
      rw [after, ih _ _ step (perform_sound table operation sound) stays]
      cases stored : storedThrough? handle (operation, (table.perform operation).1) with
      | none => simp [stores, outcomes, stored]
      | some value => simp [stores, outcomes, stored, List.getLast?_cons]

end Record

theorem perform_name (table : SymbolTable) (operation : Operation) (sound : table.Sound) (key : NamePool.Key)
    (name : String) (named : table.names.name? key = some name) :
    (table.perform operation).2.names.name? key = some name := by
  cases operation with
  | createScope parent =>
      rw [perform, create_names]
      exact named
  | hide id =>
      rw [perform, hide, (modify_frame table id _).2.2]
      exact named
  | destroy top =>
      rw [perform, destroy_names]
      exact named
  | insert id new type =>
      rw [perform]
      rcases insert_next table sound.named id new type with kept | written
      · rw [kept]
        exact named
      · rw [written, (modify_frame _ id _).2.2]
        exact NamePool.intern_keeps_name table.names new name key named
  | setValue handle value =>
      rw [perform, setValue, (modify_frame table handle.scope _).2.2]
      exact named

theorem after_name (table : SymbolTable) (operations : List Operation) (sound : table.Sound) (key : NamePool.Key)
    (name : String) (named : table.names.name? key = some name) :
    (table.after operations).names.name? key = some name := by
  induction operations generalizing table with
  | nil => exact named
  | cons operation operations ih =>
      exact ih (table.perform operation).2 (perform_sound table operation sound) (perform_name table operation sound key name named)

theorem insert_record (table : SymbolTable) (sound : table.Sound) (id : ScopeId) (name : String) (type : ValueType)
    (handle : Handle) (inserted : (table.insert id name type).1 = .ok handle) :
    handle.scope = id ∧ ∃ key, (table.insert id name type).2.record? handle = some ⟨key, type, Double.zero⟩ ∧
      (table.insert id name type).2.names.name? key = some name := by
  rcases insert_cases table id name type sound.named with ⟨_, failed⟩ | ⟨_, _, _, _, _, failed⟩ | ⟨scope, read, _, done⟩
  · rw [failed] at inserted
    cases inserted
  · rw [failed] at inserted
    cases inserted
  · rw [done] at inserted ⊢
    cases inserted
    refine ⟨rfl, (table.names.intern name).1, ?_, ?_⟩
    · rw [record_iff, modify_scope, if_pos rfl]
      change ∃ next, (table.scope? id).map _ = some next ∧ _
      rw [read]
      exact ⟨_, rfl, by simp [declare, Scope.size]⟩
    · dsimp only
      rw [(modify_frame _ id _).2.2]
      exact NamePool.intern_name table.names name

theorem handles_stay_valid (table : SymbolTable) (reached : table.Reached) (id : ScopeId) (name : String) (type : ValueType)
    (handle : Handle) (inserted : (table.insert id name type).1 = .ok handle) (operations : List Operation)
    (kept : (table.insert id name type).2.KeepsAll id operations)
    (room : ((table.insert id name type).2.after operations).slots.size ≤ UInt32.size) :
    ((table.insert id name type).2.after operations).nameOf? handle = some name ∧
    ((table.insert id name type).2.after operations).typeOf? handle = some type ∧
    ((table.insert id name type).2.after operations).lookupLocal id name = some handle ∧
    (((table.insert id name type).2.after operations).record? handle).map Record.value =
      some (((table.insert id name type).2.stores handle operations).getLast?.getD Double.zero) := by
  have sound := reached_sound table reached
  have grown := insert_sound table id name type sound
  obtain ⟨rfl, key, held, named⟩ := insert_record table sound id name type handle inserted
  obtain ⟨scope, read, _⟩ := (record_iff _ handle _).mp held
  have smaller := Nat.le_trans (after_size_le _ operations grown) room
  have nested := reached_nested _ (reached_perform table reached (.insert handle.scope name type)) smaller
  have stays := after_keeps _ operations grown nested room handle.scope (contains_of_scope _ handle.scope scope read) kept
  have last := after_record _ handle _ held operations grown stays
  have called : ((table.insert handle.scope name type).2.after operations).nameOf? handle = some name := by
    rw [nameOf?, last]
    exact after_name _ operations grown key name named
  refine ⟨called, ?_, ?_, ?_⟩
  · rw [typeOf?, last]
    rfl
  · exact (lookup_local_iff _ (after_sound _ operations grown).named handle.scope name handle).mpr ⟨rfl, called⟩
  · rw [last]
    rfl

def planted : SymbolTable := ((empty.after recycling).insert ⟨2, 1⟩ "y" (.scalar .int)).2

-- After a store the scope inside goes, and its slot passes to a sibling that declares the same name. The stores
-- through the handle of the sibling and through a stale one are not for the record.
def surroundings : List Operation :=
  [.setValue ⟨⟨2, 1⟩, 0⟩ ⟨7⟩, .destroy ⟨1, 1⟩, .createScope (some ⟨0, 0⟩), .insert ⟨1, 2⟩ "y" (.array .char),
    .setValue ⟨⟨1, 2⟩, 0⟩ ⟨8⟩, .setValue ⟨⟨2, 0⟩, 0⟩ ⟨9⟩, .insert ⟨2, 1⟩ "z" (.scalar .char), .hide ⟨2, 1⟩,
    .destroy ⟨1, 2⟩]

theorem handles_stay_valid_surroundings :
    (empty.after recycling).Reached ∧
      ((empty.after recycling).insert ⟨2, 1⟩ "y" (.scalar .int)).1 = .ok ⟨⟨2, 1⟩, 0⟩ ∧
      planted.KeepsAll ⟨2, 1⟩ surroundings ∧ (planted.after surroundings).slots.size = 3 ∧
      (planted.after surroundings).nameOf? ⟨⟨2, 1⟩, 0⟩ = some "y" ∧
      (planted.after surroundings).typeOf? ⟨⟨2, 1⟩, 0⟩ = some (.scalar .int) ∧
      (planted.after surroundings).lookupLocal ⟨2, 1⟩ "y" = some ⟨⟨2, 1⟩, 0⟩ ∧
      ((planted.after surroundings).record? ⟨⟨2, 1⟩, 0⟩).map Record.value = some ⟨7⟩ := by
  have reached : (empty.after recycling).Reached := ⟨recycling, rfl⟩
  have inserted : ((empty.after recycling).insert ⟨2, 1⟩ "y" (.scalar .int)).1 = .ok ⟨⟨2, 1⟩, 0⟩ := by cbv
  have outside : ∀ table : SymbolTable, table.parent? ⟨2, 1⟩ = some ⟨0, 0⟩ → table.contains ⟨0, 0⟩ = true →
      table.parent? ⟨0, 0⟩ = none → ∀ top, top ≠ ⟨2, 1⟩ → top ≠ ⟨0, 0⟩ → ¬ table.Encloses top ⟨2, 1⟩ := by
    intro table link live root top first second
    rw [chain_encloses table ⟨2, 1⟩ _ (.inner _ _ _ link (.root _ live root))]
    simp [first, second]
  have kept : planted.KeepsAll ⟨2, 1⟩ surroundings :=
    ⟨trivial, outside _ (by cbv) (by cbv) (by cbv) _ (by decide) (by decide), trivial, trivial, trivial, trivial, trivial,
      trivial, outside _ (by cbv) (by cbv) (by cbv) _ (by decide) (by decide), trivial⟩
  have size : (planted.after surroundings).slots.size = 3 := by cbv
  have stored : planted.stores ⟨⟨2, 1⟩, 0⟩ surroundings = [⟨7⟩] := by cbv
  have stable := handles_stay_valid _ reached ⟨2, 1⟩ "y" (.scalar .int) _ inserted surroundings kept
    (Nat.le_trans (Nat.le_of_eq size) (by decide))
  change _ ∧ _ ∧ _ ∧ _ = some ((planted.stores ⟨⟨2, 1⟩, 0⟩ surroundings).getLast?.getD Double.zero) at stable
  rw [stored] at stable
  exact ⟨reached, inserted, kept, size, stable⟩

theorem keeps_without_destroy (table : SymbolTable) (id : ScopeId) (operations : List Operation)
    (lasting : ∀ top, Operation.destroy top ∉ operations) : table.KeepsAll id operations := by
  induction operations generalizing table with
  | nil => trivial
  | cons operation operations ih =>
      refine ⟨?_, ih _ fun top member => lasting top (List.mem_cons_of_mem operation member)⟩
      cases operation with
      | destroy top => exact absurd List.mem_cons_self (lasting top)
      | _ => trivial

theorem keeps_append (table : SymbolTable) (id : ScopeId) (earlier later : List Operation)
    (first : table.KeepsAll id earlier) (second : (table.after earlier).KeepsAll id later) :
    table.KeepsAll id (earlier ++ later) := by
  induction earlier generalizing table with
  | nil => exact second
  | cons operation earlier ih => exact ⟨first.1, ih _ first.2 second⟩

def rooted : SymbolTable := empty.after [.createScope none]

-- The run that leads to a crowded table, from the declaration in the first scope on.
def overcrowding (count : Nat) : List Operation :=
  .createScope none :: (List.replicate count (.createScope none) ++ [.createScope (some ⟨1, 0⟩)])

theorem overcrowding_after (count : Nat) :
    (rooted.insert ⟨0, 0⟩ "x" (.scalar .int)).2.after (overcrowding count) = empty.after (crowding count) :=
  rfl

section Wide

variable (count : Nat) (wide : count + 2 = UInt32.size)
include wide

theorem overcrowding_keeps :
    (rooted.insert ⟨0, 0⟩ "x" (.scalar .int)).2.KeepsAll ⟨0, 0⟩ (overcrowding count ++ [.destroy ⟨1, 0⟩]) := by
  have lasting : ∀ top, Operation.destroy top ∉ overcrowding count := by simp [overcrowding]
  apply keeps_append _ _ _ _ (keeps_without_destroy _ _ _ lasting)
  rw [overcrowding_after]
  exact ⟨crowding_apart count wide, trivial⟩

theorem overcrowding_loses :
    ((rooted.insert ⟨0, 0⟩ "x" (.scalar .int)).2.after (overcrowding count ++ [.destroy ⟨1, 0⟩])).nameOf? ⟨⟨0, 0⟩, 0⟩ =
      none := by
  rw [after_append, overcrowding_after]
  exact ((absent_inert _ ⟨0, 0⟩ (crowding_gone count wide)).noRecord 0).2.1

end Wide

-- The scope that is destroyed at the end neither is nor encloses that of the handle, yet the handle is lost.
theorem handle_lost_when_crowded :
    rooted.Reached ∧ (rooted.insert ⟨0, 0⟩ "x" (.scalar .int)).1 = .ok ⟨⟨0, 0⟩, 0⟩ ∧
      (rooted.insert ⟨0, 0⟩ "x" (.scalar .int)).2.KeepsAll ⟨0, 0⟩ (overcrowding (UInt32.size - 2) ++ [.destroy ⟨1, 0⟩]) ∧
      ((rooted.insert ⟨0, 0⟩ "x" (.scalar .int)).2.after (overcrowding (UInt32.size - 2) ++ [.destroy ⟨1, 0⟩])).nameOf?
        ⟨⟨0, 0⟩, 0⟩ = none :=
  ⟨⟨_, rfl⟩, by cbv, overcrowding_keeps (UInt32.size - 2) rfl, overcrowding_loses (UInt32.size - 2) rfl⟩

end SymbolTable

end Frontend
