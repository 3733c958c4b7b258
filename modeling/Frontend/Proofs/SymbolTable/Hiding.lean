import Mathlib.Data.List.Induction
import Frontend.Proofs.SymbolTable.Resemblance
import Frontend.Proofs.SymbolTable.Stability

set_option autoImplicit false

namespace Frontend

attribute [ext] Record

def Turn.hides : Turn → Bool
  | .perform (.hide _) => true
  | _ => false

def Turn.asksMark : Turn → Bool
  | .ask (.hidden _) => true
  | _ => false

-- What is left of a list when the entries that are struck out are gone.
def unstruck {α : Type} : List (Bool × α) → List α
  | [] => []
  | (true, _) :: entries => unstruck entries
  | (false, entry) :: entries => entry :: unstruck entries

theorem hides_iff (turn : Turn) : turn.hides = true ↔ ∃ id, turn = .perform (.hide id) := by
  constructor
  · intro hides
    cases turn with
    | perform operation =>
        cases operation with
        | hide id => exact ⟨id, rfl⟩
        | _ => cases hides
    | ask query => cases hides
  · rintro ⟨id, rfl⟩
    rfl

namespace SymbolTable

structure DifferInMarks (table other : SymbolTable) : Prop where
  resembles : Resembles (fun _ _ => True) table other
  names : other.names = table.names
  sound : table.Sound
  otherSound : other.Sound

theorem insert_names (table : SymbolTable) (named : table.Named) (id : ScopeId) (name : String) (type : ValueType) :
    (table.insert id name type).2.names =
      match (table.insert id name type).1 with
      | .ok _ => (table.names.intern name).2
      | .error _ => table.names := by
  cases result : (table.insert id name type).1 with
  | error error => rw [insert_failed table named id name type error result]
  | ok handle => rw [insert_succeeded table named id name type handle result, (modify_frame _ id _).2.2]

theorem modify_identity (table : SymbolTable) (id : ScopeId) : table.modifyScope id (fun scope => scope) = table := by
  cases read : table.scope? id with
  | none => exact modify_absent table id _ read
  | some scope =>
      have slot := (scope_iff_slot table id scope).mp read
      obtain ⟨bound, held⟩ := Array.getElem?_eq_some_iff.mp slot
      have same : table.slots.setIfInBounds id.slot ⟨id.generation, some scope⟩ = table.slots := by
        rw [← held, Array.setIfInBounds_def, dif_pos bound, Array.set_getElem_self]
      rw [modify_present table id _ scope read, same]

section Differ

variable (table other : SymbolTable) (differ : DifferInMarks table other)
include differ

theorem differ_perform (operation : Operation) :
    (other.perform operation).1 = (table.perform operation).1 ∧
      DifferInMarks (table.perform operation).2 (other.perform operation).2 := by
  obtain ⟨resembles, names, sound, otherSound⟩ := differ
  obtain ⟨sameOutcome, next⟩ := resembles_perform _ table other resembles sound otherSound (fun _ => trivial) operation
  refine ⟨sameOutcome, next, ?_, perform_sound table operation sound, perform_sound other operation otherSound⟩
  cases operation with
  | createScope parent => rw [perform, perform, create_names, create_names, names]
  | hide id =>
      rw [perform, perform, hide, hide, (modify_frame other id _).2.2, (modify_frame table id _).2.2]
      exact names
  | destroy id => rw [perform, perform, destroy_names, destroy_names, names]
  | insert id name type =>
      have sameResult : (other.insert id name type).1 = (table.insert id name type).1 := Outcome.inserted.inj sameOutcome
      rw [perform, perform, insert_names other otherSound.named, insert_names table sound.named, sameResult, names]
  | setValue handle value =>
      rw [perform, perform, setValue, setValue, (modify_frame other handle.scope _).2.2,
        (modify_frame table handle.scope _).2.2]
      exact names

-- One pool gives every name one key, so records that tell the same are the same.
theorem differ_record (handle : Handle) : other.record? handle = table.record? handle := by
  have told := resembles_record _ table other differ.resembles handle
  cases held : table.record? handle with
  | none =>
      rw [held] at told
      exact Option.map_eq_none_iff.mp told
  | some record =>
      rw [held] at told
      obtain ⟨twin, twinHeld, same⟩ := Option.map_eq_some_iff.mp told
      obtain ⟨sameName, sameType, sameValue⟩ : other.names.name? twin.name = table.names.name? record.name ∧
          twin.type = record.type ∧ twin.value = record.value := by simpa [Record.told] using same
      obtain ⟨scope, read, position⟩ := (record_iff table handle record).mp held
      have listed : record.name ∈ keys scope := List.mem_map_of_mem (List.mem_of_getElem? position)
      obtain ⟨name, known⟩ := (differ.sound.named.wellNamed handle.scope scope read).2 record.name listed
      rw [differ.names, known] at sameName
      have sameKey := NamePool.name_unique table.names differ.sound.named.distinct twin.name record.name name sameName known
      rw [twinHeld, Record.ext sameKey sameType sameValue]

theorem differ_answer (query : Query) (unmarked : ∀ id, query ≠ .hidden id) : other.answer query = table.answer query := by
  have keyless := resembles_answer _ table other differ.resembles differ.sound differ.otherSound query unmarked
  cases query with
  | record handle => rw [answer, answer, differ_record table other differ]
  | _ => exact keyless

theorem differ_turn (turn : Turn) :
    (turn.asksMark = true ∨ (other.turn turn).1 = (table.turn turn).1) ∧
      DifferInMarks (table.turn turn).2 (other.turn turn).2 := by
  cases turn with
  | perform operation =>
      obtain ⟨sameOutcome, next⟩ := differ_perform table other differ operation
      exact ⟨Or.inr (congrArg Response.performed sameOutcome), next⟩
  | ask query =>
      refine ⟨?_, differ⟩
      by_cases mark : ∃ id, query = .hidden id
      · obtain ⟨id, rfl⟩ := mark
        exact Or.inl rfl
      · exact Or.inr (congrArg Response.answered (differ_answer table other differ query fun id same => mark ⟨id, same⟩))

theorem differ_hide (id : ScopeId) : DifferInMarks (table.hide id).2 other := by
  obtain ⟨resembles, names, sound, otherSound⟩ := differ
  have pool : (table.hide id).2.names = table.names := (modify_frame table id _).2.2
  refine ⟨?_, names.trans pool.symm, hide_sound table id sound, otherSound⟩
  have marked := parallel_modify _ table other resembles id (fun scope => { scope with hidden := true }) (fun scope => scope)
    fun a b _ _ same => ⟨same.parent, same.children, same.records, trivial⟩
  rw [modify_identity other id] at marked
  rw [Resembles, pool]
  exact marked

-- The run over `table` goes through all turns, the one over `other` leaves out those that are struck.
theorem differ_transcript (turns : List (Bool × Turn)) (struck : ∀ entry ∈ turns, entry.1 = true → entry.2.hides = true) :
    (other.transcript (unstruck turns)).filter (fun entry => !entry.1.asksMark) =
      (unstruck ((turns.map Prod.fst).zip (table.transcript (turns.map Prod.snd)))).filter fun entry => !entry.1.asksMark := by
  induction turns generalizing table other with
  | nil => rfl
  | cons entry turns ih =>
      obtain ⟨left, turn⟩ := entry
      have rest : ∀ entry ∈ turns, entry.1 = true → entry.2.hides = true := fun entry member =>
        struck entry (List.mem_cons_of_mem _ member)
      cases left with
      | true =>
          have hides : turn.hides = true := struck (true, turn) List.mem_cons_self rfl
          obtain ⟨id, rfl⟩ := (hides_iff turn).mp hides
          exact ih _ other (differ_hide table other differ id) rest
      | false =>
          obtain ⟨sameResponse, next⟩ := differ_turn table other differ turn
          have later := ih _ _ next rest
          simp only [unstruck, transcript, List.map_cons, List.zip_cons_cons, List.filter_cons, later]
          rcases sameResponse with asks | same
          · simp [asks]
          · rw [same]

end Differ

theorem hidden_iff (table : SymbolTable) (id : ScopeId) :
    table.isHidden id = true ↔ ∃ scope, table.scope? id = some scope ∧ scope.hidden = true := by
  unfold isHidden
  cases table.scope? id <;> simp

theorem hidden_live (table : SymbolTable) (id : ScopeId) (hidden : table.isHidden id = true) : table.contains id = true := by
  obtain ⟨scope, read, _⟩ := (hidden_iff table id).mp hidden
  exact (contains_iff table id).mpr ⟨scope, read⟩

theorem hidden_and_live (table : SymbolTable) (id : ScopeId) :
    table.isHidden id = true ↔ table.contains id = true ∧ table.isHidden id = true :=
  ⟨fun hidden => ⟨hidden_live table id hidden, hidden⟩, fun both => both.2⟩

theorem modify_hidden (table : SymbolTable) (id : ScopeId) (change : Scope → Scope)
    (sameMark : ∀ scope, (change scope).hidden = scope.hidden) (other : ScopeId) :
    (table.modifyScope id change).isHidden other = table.isHidden other := by
  rw [isHidden, isHidden, modify_scope]
  by_cases same : other = id
  · rw [if_pos same, same]
    cases table.scope? id with
    | none => rfl
    | some scope => exact sameMark scope
  · rw [if_neg same]

theorem relink_hidden (table : SymbolTable) (parent : Option ScopeId) (change : List ScopeId → List ScopeId) (id : ScopeId) :
    (table.relink parent change).isHidden id = table.isHidden id := by
  cases parent with
  | none => rfl
  | some outer =>
      apply modify_hidden
      intro scope
      rfl

-- A fresh id had no mark before, for want of a scope, and its scope comes without one.
theorem create_hidden (table : SymbolTable) (parent : Option ScopeId) (sound : table.Sound) (id : ScopeId) :
    (table.createScope parent).2.isHidden id = table.isHidden id := by
  have vacancies := sound.allocated.freeVacant
  rcases create_cases table parent with ⟨_, _, _, failed⟩ | ⟨_, created⟩
  · rw [failed]
  · rw [created]
    dsimp only
    rw [relink_hidden, isHidden, isHidden, place_scope table _ vacancies]
    by_cases fresh : table.HasRoom ∧ id = (table.place { parent := parent }).1
    · have here : id.slot = table.nextSlot := fresh.2 ▸ place_at_next table _ vacancies fresh.1
      rw [if_pos fresh, next_absent table vacancies id here]
    · rw [if_neg fresh]

theorem insert_hidden (table : SymbolTable) (target : ScopeId) (name : String) (type : ValueType) (sound : table.Sound)
    (id : ScopeId) : (table.insert target name type).2.isHidden id = table.isHidden id := by
  rcases insert_next table sound.named target name type with kept | written
  · rw [kept]
  · rw [written, modify_hidden _ target (declare _ type) (fun _ => rfl)]
    rfl

theorem hide_hidden (table : SymbolTable) (target id : ScopeId) :
    (table.hide target).2.isHidden id = true ↔ table.contains id = true ∧ (table.isHidden id = true ∨ target = id) := by
  rw [hidden_iff, hide, modify_scope]
  by_cases same : id = target
  · rw [if_pos same, same, contains_iff]
    cases table.scope? target <;> simp
  · rw [if_neg same, ← hidden_iff]
    constructor
    · exact fun hidden => ⟨hidden_live table id hidden, Or.inl hidden⟩
    · rintro ⟨_, hidden | equal⟩
      · exact hidden
      · exact absurd equal.symm same

theorem destroy_hidden (table : SymbolTable) (top id : ScopeId) (sound : table.Sound) :
    (table.destroy top).2.isHidden id = true ↔ (table.destroy top).2.contains id = true ∧ table.isHidden id = true := by
  cases live : table.contains top with
  | false =>
      rw [destroy_absent table top live]
      exact hidden_and_live table id
  | true =>
      by_cases met : table.Meets [top] id
      · have gone := destroy_met table top live sound.linked id met
        simp [isHidden, contains, gone]
      · have kept : (table.destroy top).2.isHidden id = table.isHidden id := by
          rw [← relink_hidden table (table.parent? top) (List.filter (· != top)), isHidden, isHidden,
            destroy_unmet table top live sound.linked id met, detached]
        rw [← kept]
        exact hidden_and_live _ id

section Step

variable (table : SymbolTable) (operation : Operation) (sound : table.Sound) (id : ScopeId)
include sound

theorem perform_hidden :
    (table.perform operation).2.isHidden id = true ↔
      (table.perform operation).2.contains id = true ∧ (table.isHidden id = true ∨ operation = .hide id) := by
  have stays : (table.perform operation).2.isHidden id = table.isHidden id → operation ≠ .hide id →
      ((table.perform operation).2.isHidden id = true ↔
        (table.perform operation).2.contains id = true ∧ (table.isHidden id = true ∨ operation = .hide id)) := by
    intro same other
    rw [← same, or_iff_left other]
    exact hidden_and_live _ id
  cases operation with
  | createScope parent => exact stays (create_hidden table parent sound id) (by simp)
  | hide target =>
      rw [perform, hide_hidden, hide, modify_contains, Operation.hide.injEq]
  | destroy top =>
      rw [perform, destroy_hidden table top id sound, or_iff_left (by simp)]
  | insert target name type => exact stays (insert_hidden table target name type sound id) (by simp)
  | setValue handle value =>
      refine stays ?_ (by simp)
      rw [perform, setValue]
      apply modify_hidden
      intro scope
      rfl

theorem perform_contains (live : (table.perform operation).2.contains id = true) :
    table.contains id = true ∨ (table.perform operation).1.newScope? = some id := by
  cases operation with
  | createScope parent =>
      have vacancies := sound.allocated.freeVacant
      rw [perform] at live ⊢
      rcases create_cases table parent with ⟨_, _, _, failed⟩ | ⟨_, created⟩
      · rw [failed] at live
        exact Or.inl live
      · rw [created] at live ⊢
        dsimp only at live
        rw [relink_contains, contains, place_scope table _ vacancies] at live
        by_cases fresh : table.HasRoom ∧ id = (table.place { parent := parent }).1
        · exact Or.inr (congrArg some fresh.2.symm)
        · rw [if_neg fresh] at live
          exact Or.inl live
  | hide target =>
      rw [perform, hide, modify_contains] at live
      exact Or.inl live
  | destroy top =>
      rw [perform] at live
      cases present : table.contains top with
      | false =>
          rw [destroy_absent table top present] at live
          exact Or.inl live
      | true => exact Or.inl ((destroy_live_iff table top present sound.linked id).mp live).1
  | insert target name type =>
      rw [perform] at live
      rcases insert_next table sound.named target name type with kept | written
      · rw [kept] at live
        exact Or.inl live
      · rw [written, modify_contains] at live
        exact Or.inl live
  | setValue handle value =>
      rw [perform, setValue, modify_contains] at live
      exact Or.inl live

theorem perform_born (room : table.HasRoom) (made : (table.perform operation).1.newScope? = some id) :
    (table.perform operation).2.isHidden id = false := by
  obtain ⟨unknown, _⟩ := perform_fresh table operation sound id room made
  rw [← Bool.not_eq_true, perform_hidden table operation sound id]
  rintro ⟨_, hidden | rfl⟩
  · exact unknown (Or.inl (hidden_live table id hidden))
  · cases made

end Step

theorem after_snoc (table : SymbolTable) (operations : List Operation) (operation : Operation) :
    table.after (operations ++ [operation]) = ((table.after operations).perform operation).2 :=
  after_append table operations [operation]

theorem after_issued (table : SymbolTable) (operations : List Operation) (sound : table.Sound) (id : ScopeId)
    (known : table.Issued id) : (table.after operations).Issued id := by
  induction operations generalizing table with
  | nil => exact known
  | cons operation operations ih =>
      exact ih _ (perform_sound table operation sound) (perform_issued table operation sound id known)

theorem issued_live_before (table : SymbolTable) (operations : List Operation) (sound : table.Sound) (id : ScopeId)
    (known : table.Issued id) (live : (table.after operations).contains id = true) : table.contains id = true := by
  rcases known with present | spent
  · exact present
  · rw [spent_absent _ id (after_spent table operations sound id spent)] at live
    cases live

-- A mark that is set stays as long as the scope does.
theorem after_hidden (table : SymbolTable) (operations : List Operation) (sound : table.Sound) (id : ScopeId)
    (hidden : table.isHidden id = true) (live : (table.after operations).contains id = true) :
    (table.after operations).isHidden id = true := by
  induction operations generalizing table with
  | nil => exact hidden
  | cons operation operations ih =>
      have nextSound := perform_sound table operation sound
      have known := perform_issued table operation sound id (Or.inl (hidden_live table id hidden))
      have nextLive := issued_live_before _ operations nextSound id known live
      exact ih _ nextSound ((perform_hidden table operation sound id).mpr ⟨nextLive, Or.inl hidden⟩) live

theorem live_created (operations : List Operation) (id : ScopeId) (live : (empty.after operations).contains id = true) :
    ∃ before creation later, operations = before ++ creation :: later ∧
      ((empty.after before).perform creation).1.newScope? = some id := by
  induction operations using List.reverseRecOn with
  | nil => cases live
  | append_singleton operations operation ih =>
      rw [after_snoc] at live
      rcases perform_contains _ operation (after_sound empty operations empty_sound) id live with present | created
      · obtain ⟨before, creation, later, rfl, made⟩ := ih present
        exact ⟨before, creation, later ++ [operation], by simp, made⟩
      · exact ⟨operations, operation, [], rfl, created⟩

-- The scope was created in the run, and hidden later on.
def HiddenSinceCreated (operations : List Operation) (id : ScopeId) : Prop :=
  ∃ before creation between later, operations = before ++ creation :: (between ++ .hide id :: later) ∧
    ((empty.after before).perform creation).1.newScope? = some id

theorem hidden_traced (operations : List Operation) (id : ScopeId) (hidden : (empty.after operations).isHidden id = true) :
    HiddenSinceCreated operations id := by
  induction operations using List.reverseRecOn with
  | nil => cases hidden
  | append_singleton operations operation ih =>
      have sound := after_sound empty operations empty_sound
      rw [after_snoc] at hidden
      obtain ⟨live, earlier | rfl⟩ := (perform_hidden _ operation sound id).mp hidden
      · obtain ⟨before, creation, between, later, rfl, made⟩ := ih earlier
        exact ⟨before, creation, between, later ++ [operation], by simp, made⟩
      · rw [perform, hide, modify_contains] at live
        obtain ⟨before, creation, later, rfl, made⟩ := live_created operations id live
        exact ⟨before, creation, later, [], by simp, made⟩

theorem traced_hidden (operations : List Operation) (id : ScopeId) (live : (empty.after operations).contains id = true)
    (traced : HiddenSinceCreated operations id) : (empty.after operations).isHidden id = true := by
  obtain ⟨before, creation, between, later, rfl, made⟩ := traced
  have sound := after_sound empty before empty_sound
  have nextSound := perform_sound _ creation sound
  have known := after_issued _ between nextSound id (perform_known _ creation sound id made)
  have markSound := after_sound _ between nextSound
  rw [after_append, after, after_append] at live ⊢
  have present := issued_live_before _ _ markSound id known live
  exact after_hidden _ later (perform_sound _ _ markSound) id ((hide_hidden _ id id).mpr ⟨present, Or.inr rfl⟩) live

-- A slot that is used again has room. Only past the last index can a new id be that of an older scope, with its mark.
theorem hiding_marks_only :
    (∀ turns : List (Bool × Turn), (∀ entry ∈ turns, entry.1 = true → entry.2.hides = true) →
      (empty.transcript (unstruck turns)).filter (fun entry => !entry.1.asksMark) =
        (unstruck ((turns.map Prod.fst).zip (empty.transcript (turns.map Prod.snd)))).filter fun entry => !entry.1.asksMark) ∧
    (∀ operations id, (empty.after operations).isHidden id = true ↔
      (empty.after operations).contains id = true ∧ HiddenSinceCreated operations id) ∧
    ∀ operations creation id, (empty.after operations).HasRoom →
      ((empty.after operations).perform creation).1.newScope? = some id →
      (empty.after (operations ++ [creation])).isHidden id = false := by
  refine ⟨fun turns struck => ?_, fun operations id => ⟨fun hidden => ?_, fun both => ?_⟩, fun operations creation id room made => ?_⟩
  · exact differ_transcript empty empty ⟨resembles_self _ (fun _ => trivial) empty, rfl, empty_sound, empty_sound⟩ turns struck
  · exact ⟨hidden_live _ id hidden, hidden_traced operations id hidden⟩
  · exact traced_hidden operations id both.1 both.2
  · rw [after_snoc]
    exact perform_born _ creation (after_sound empty operations empty_sound) id room made

-- The hidden #1.0 is destroyed and #1.1 takes its slot. Of the two hidings the first is struck out.
def concealing : List (Bool × Turn) :=
  [(false, .perform (.createScope none)), (false, .perform (.createScope (some ⟨0, 0⟩))),
    (true, .perform (.hide ⟨1, 0⟩)), (false, .perform (.insert ⟨1, 0⟩ "x" (.scalar .int))),
    (false, .ask (.hidden ⟨1, 0⟩)), (false, .ask (.lookupLexical ⟨1, 0⟩ "x")), (false, .perform (.hide ⟨0, 0⟩)),
    (false, .perform (.destroy ⟨1, 0⟩)), (false, .perform (.createScope (some ⟨0, 0⟩))), (false, .ask (.children ⟨0, 0⟩))]

theorem hiding_marks_only_concealing :
    (∀ entry ∈ concealing, entry.1 = true → entry.2.hides = true) ∧
    (empty.transcript (unstruck concealing)).filter (fun entry => !entry.1.asksMark) =
      (unstruck ((concealing.map Prod.fst).zip (empty.transcript (concealing.map Prod.snd)))).filter
        (fun entry => !entry.1.asksMark) ∧
    (empty.after [.createScope none, .hide ⟨0, 0⟩]).isHidden ⟨0, 0⟩ = true ∧
    HiddenSinceCreated [.createScope none, .hide ⟨0, 0⟩] ⟨0, 0⟩ ∧
    (empty.after [.createScope none, .hide ⟨0, 0⟩, .destroy ⟨0, 0⟩]).HasRoom ∧
    ((empty.after [.createScope none, .hide ⟨0, 0⟩, .destroy ⟨0, 0⟩]).perform (.createScope none)).1.newScope? = some ⟨0, 1⟩ ∧
    (empty.after ([.createScope none, .hide ⟨0, 0⟩, .destroy ⟨0, 0⟩] ++ [.createScope none])).isHidden ⟨0, 1⟩ = false := by
  have struck : ∀ entry ∈ concealing, entry.1 = true → entry.2.hides = true := by decide
  have hidden : (empty.after [.createScope none, .hide ⟨0, 0⟩]).isHidden ⟨0, 0⟩ = true := by cbv
  have room : (empty.after [.createScope none, .hide ⟨0, 0⟩, .destroy ⟨0, 0⟩]).HasRoom := by
    have next : (empty.after [.createScope none, .hide ⟨0, 0⟩, .destroy ⟨0, 0⟩]).nextSlot = 0 := by cbv
    rw [HasRoom, next]
    decide
  have made : ((empty.after [.createScope none, .hide ⟨0, 0⟩, .destroy ⟨0, 0⟩]).perform (.createScope none)).1.newScope? =
      some ⟨0, 1⟩ := by cbv
  exact ⟨struck, hiding_marks_only.1 concealing struck, hidden, ((hiding_marks_only.2.1 _ _).mp hidden).2, room, made,
    hiding_marks_only.2.2 _ _ _ room made⟩

end SymbolTable

end Frontend
