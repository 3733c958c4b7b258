import Frontend.Proofs.SymbolTable.Resemblance

set_option autoImplicit false

namespace Frontend.SymbolTable

theorem modify_renamed (table : SymbolTable) (id : ScopeId) (change : Scope → Scope) (names : NamePool) :
    { table.modifyScope id change with names := names } = { table with names := names }.modifyScope id change := by
  cases read : table.scope? id with
  | none => rw [modify_absent table id change read, modify_absent { table with names := names } id change read]
  | some scope => rw [modify_present table id change scope read, modify_present { table with names := names } id change scope read]

theorem modify_commutes (table : SymbolTable) (a b : ScopeId) (different : a ≠ b) (change other : Scope → Scope) :
    (table.modifyScope a change).modifyScope b other = (table.modifyScope b other).modifyScope a change := by
  have afterA : (table.modifyScope a change).scope? b = table.scope? b := by
    rw [modify_scope, if_neg (Ne.symm different)]
  have afterB : (table.modifyScope b other).scope? a = table.scope? a := by
    rw [modify_scope, if_neg different]
  cases readA : table.scope? a with
  | none => rw [modify_absent table a change readA, modify_absent _ a change (afterB.trans readA)]
  | some scopeA =>
      cases readB : table.scope? b with
      | none => rw [modify_absent table b other readB, modify_absent _ b other (afterA.trans readB)]
      | some scopeB =>
          have apart : a.slot ≠ b.slot := fun same => different (slot_holds_one table a b scopeA scopeB readA readB same)
          rw [modify_present _ b other scopeB (afterA.trans readB), modify_present _ a change scopeA (afterB.trans readA),
            modify_present table a change scopeA readA, modify_present table b other scopeB readB]
          dsimp only
          rw [Array.setIfInBounds_comm _ _ apart]

section Elsewhere

variable (table : SymbolTable) (sound : table.Sound) (a b : ScopeId) (different : a ≠ b) (x y : String)
  (tx ty : ValueType)
include sound different

theorem insert_elsewhere_scope : (table.insert b y ty).2.scope? a = table.scope? a := by
  rcases insert_next table sound.named b y ty with kept | written
  · rw [kept]
  · rw [written, modify_scope, if_neg different]
    rfl

theorem insert_elsewhere_declares (name : String) : (table.insert b y ty).2.Declares a name ↔ table.Declares a name := by
  have scopes := insert_elsewhere_scope table sound a b different y ty
  have names : ∀ index, (table.insert b y ty).2.nameOf? ⟨a, index⟩ = table.nameOf? ⟨a, index⟩ := by
    intro index
    rw [name_told, name_told, record?, record?, scopes]
    cases read : table.scope? a with
    | none => rfl
    | some scope =>
        dsimp only
        rw [← List.getElem?_map, ← List.getElem?_map]
        rcases insert_next table sound.named b y ty with kept | written
        · rw [kept]
        · rw [written, (modify_frame _ b _).2.2, told_grown table.names y scope (sound.named.wellNamed a scope read)]
  unfold Declares
  simp only [names]

theorem insert_elsewhere_result : ((table.insert b y ty).2.insert a x tx).1 = (table.insert a x tx).1 := by
  have scopes := insert_elsewhere_scope table sound a b different y ty
  have declares := insert_elsewhere_declares table sound a b different y ty x
  have grown := (insert_sound table b y ty sound).named
  cases read : table.scope? a with
  | none =>
      have absent := (not_contains_iff table a).mpr read
      have gone := (not_contains_iff _ a).mpr (scopes.trans read)
      rw [(absent_inert table a absent).noInsert, (absent_inert _ a gone).noInsert]
  | some scope =>
      by_cases declared : table.Declares a x
      · rw [insert_declared table sound.named a x tx scope read declared,
          insert_declared _ grown a x tx scope (scopes.trans read) (declares.mpr declared)]
      · rw [insert_undeclared table sound.named a x tx scope read declared,
          insert_undeclared _ grown a x tx scope (scopes.trans read) (fun again => declared (declares.mp again))]

theorem insert_failed_twice (error : TableError) (failed : (table.insert a x tx).1 = .error error) :
    (table.insert a x tx).2 = table ∧ ((table.insert b y ty).2.insert a x tx).2 = (table.insert b y ty).2 := by
  have again : ((table.insert b y ty).2.insert a x tx).1 = .error error :=
    (insert_elsewhere_result table sound a b different x y tx ty).trans failed
  exact ⟨insert_failed table sound.named a x tx error failed, insert_failed _ (insert_sound table b y ty sound).named a x tx error again⟩

-- Both names go into the pool, the first scope is written before the second.
theorem insert_both (handle twin : Handle) (first : (table.insert a x tx).1 = .ok handle)
    (second : (table.insert b y ty).1 = .ok twin) :
    ((table.insert a x tx).2.insert b y ty).2 =
      ({ table with names := ((table.names.intern x).2.intern y).2 }.modifyScope a
        (declare (table.names.intern x).1 tx)).modifyScope b (declare ((table.names.intern x).2.intern y).1 ty) := by
  have again : ((table.insert a x tx).2.insert b y ty).1 = .ok twin :=
    (insert_elsewhere_result table sound b a (Ne.symm different) y x ty tx).trans second
  have grown := (insert_sound table a x tx sound).named
  rw [insert_succeeded _ grown b y ty twin again, insert_succeeded table sound.named a x tx handle first,
    (modify_frame _ a _).2.2, modify_renamed]

omit different in
-- The two pools give the same names to all keys that were there before.
theorem pools_resemble :
    Parallel (TellsSame Eq ((table.names.intern x).2.intern y).2 ((table.names.intern y).2.intern x).2)
      { table with names := ((table.names.intern x).2.intern y).2 }
      { table with names := ((table.names.intern y).2.intern x).2 } := by
  have kept := parallel_mono Eq
    (TellsSame Eq ((table.names.intern x).2.intern y).2 ((table.names.intern y).2.intern x).2) table table
    (parallel_self Eq table fun _ => rfl) ?_
  · exact ⟨kept.slots, kept.free, kept.live⟩
  · rintro index generation scope _ slot _ rfl
    have named := sound.named.slots index generation scope slot
    refine ⟨rfl, rfl, ?_, rfl⟩
    rw [told_grown _ y scope (well_named_intern table.names x _ named), told_grown _ x scope named,
      told_grown _ x scope (well_named_intern table.names y _ named), told_grown _ y scope named]

theorem orders_resemble :
    Resembles Eq ((table.insert a x tx).2.insert b y ty).2 ((table.insert b y ty).2.insert a x tx).2 := by
  cases first : (table.insert a x tx).1 with
  | error error =>
      obtain ⟨kept, later⟩ := insert_failed_twice table sound a b different x y tx ty error first
      rw [kept, later]
      exact resembles_self Eq (fun _ => rfl) _
  | ok handle =>
      cases second : (table.insert b y ty).1 with
      | error error =>
          obtain ⟨kept, later⟩ := insert_failed_twice table sound b a (Ne.symm different) y x ty tx error second
          rw [kept, later]
          exact resembles_self Eq (fun _ => rfl) _
      | ok twin =>
          have pools := pools_resemble table sound x y
          have xFirst := NamePool.intern_keeps_name _ y x _ (NamePool.intern_name table.names x)
          have yFirst := NamePool.intern_keeps_name _ x y _ (NamePool.intern_name table.names y)
          rw [insert_both table sound a b different x y tx ty handle twin first second,
            insert_both table sound b a (Ne.symm different) y x ty tx twin handle second first,
            modify_commutes _ b a (Ne.symm different), Resembles]
          simp only [(modify_frame _ _ _).2.2]
          refine parallel_modify _ _ _ (parallel_modify _ _ _ pools a _ _ ?_) b _ _ ?_
          · intro before other _ _ same
            exact tells_same_declared Eq _ _ x _ _ tx xFirst (NamePool.intern_name _ x) before other same
          · intro before other _ _ same
            exact tells_same_declared Eq _ _ y _ _ ty (NamePool.intern_name _ y) yFirst before other same

end Elsewhere

section Unseen

variable (table other : SymbolTable) (resembles : Resembles Eq table other) (sound : table.Sound)
  (otherSound : other.Sound)
include resembles

theorem resembles_hidden (id : ScopeId) : other.isHidden id = table.isHidden id := by
  unfold isHidden
  rcases parallel_cases _ table other resembles id with ⟨left, right⟩ | ⟨a, b, left, right, same⟩
  · rw [left, right]
  · rw [left, right]
    exact same.marked.symm

include sound otherSound

theorem resembles_turn (turn : Turn) :
    (other.turn turn).1.keyless = (table.turn turn).1.keyless ∧ Resembles Eq (table.turn turn).2 (other.turn turn).2 := by
  cases turn with
  | perform operation =>
      obtain ⟨sameOutcome, next⟩ := resembles_perform Eq table other resembles sound otherSound (fun _ => rfl) operation
      refine ⟨?_, next⟩
      rw [turn, turn, sameOutcome]
  | ask query =>
      refine ⟨congrArg Response.answered ?_, resembles⟩
      by_cases mark : ∃ id, query = .hidden id
      · obtain ⟨id, rfl⟩ := mark
        rw [answer, answer, resembles_hidden table other resembles]
      · exact resembles_answer Eq table other resembles sound otherSound query fun id same => mark ⟨id, same⟩

theorem resembles_transcript (turns : List Turn) :
    (other.transcript turns).map (Prod.map id Response.keyless) =
      (table.transcript turns).map (Prod.map id Response.keyless) := by
  induction turns generalizing table other with
  | nil => rfl
  | cons turn turns ih =>
      obtain ⟨sameResponse, next⟩ := resembles_turn table other resembles sound otherSound turn
      rw [transcript, transcript, List.map_cons, List.map_cons, Prod.map_apply, Prod.map_apply, sameResponse,
        ih _ _ next (turn_sound table turn sound) (turn_sound other turn otherSound)]

end Unseen

theorem declaration_order_unseen (table : SymbolTable) (reached : table.Reached) (a b : ScopeId) (different : a ≠ b)
    (x y : String) (tx ty : ValueType) :
    ((table.insert b y ty).2.insert a x tx).1 = (table.insert a x tx).1 ∧
    ((table.insert a x tx).2.insert b y ty).1 = (table.insert b y ty).1 ∧
    ∀ turns : List Turn,
      (((table.insert a x tx).2.insert b y ty).2.transcript turns).map (Prod.map id Response.keyless) =
        (((table.insert b y ty).2.insert a x tx).2.transcript turns).map (Prod.map id Response.keyless) := by
  have sound := reached_sound table reached
  have first := insert_sound _ b y ty (insert_sound table a x tx sound)
  have second := insert_sound _ a x tx (insert_sound table b y ty sound)
  refine ⟨insert_elsewhere_result table sound a b different x y tx ty,
    insert_elsewhere_result table sound b a (Ne.symm different) y x ty tx, fun turns => ?_⟩
  exact (resembles_transcript _ _ (orders_resemble table sound a b different x y tx ty) first second turns).symm

-- Both names are new, so the one that comes first takes the smaller key. The record of "p" shows it.
theorem declaration_order_unseen_recycling :
    (empty.after recycling).Reached ∧ (⟨2, 1⟩ : ScopeId) ≠ ⟨0, 0⟩ ∧
    (((empty.after recycling).insert ⟨2, 1⟩ "p" (.scalar .int)).2.insert ⟨0, 0⟩ "q" (.scalar .char)).2.record? ⟨⟨2, 1⟩, 0⟩ =
      some ⟨1, .scalar .int, .zero⟩ ∧
    (((empty.after recycling).insert ⟨0, 0⟩ "q" (.scalar .char)).2.insert ⟨2, 1⟩ "p" (.scalar .int)).2.record? ⟨⟨2, 1⟩, 0⟩ =
      some ⟨2, .scalar .int, .zero⟩ ∧
    ∀ turns : List Turn,
      ((((empty.after recycling).insert ⟨2, 1⟩ "p" (.scalar .int)).2.insert ⟨0, 0⟩ "q" (.scalar .char)).2.transcript turns).map
          (Prod.map id Response.keyless) =
        ((((empty.after recycling).insert ⟨0, 0⟩ "q" (.scalar .char)).2.insert ⟨2, 1⟩ "p" (.scalar .int)).2.transcript turns).map
          (Prod.map id Response.keyless) := by
  have reached : (empty.after recycling).Reached := ⟨recycling, rfl⟩
  have different : (⟨2, 1⟩ : ScopeId) ≠ ⟨0, 0⟩ := by decide
  refine ⟨reached, different, by cbv, by cbv, ?_⟩
  exact (declaration_order_unseen _ reached ⟨2, 1⟩ ⟨0, 0⟩ different "p" "q" (.scalar .int) (.scalar .char)).2.2

end Frontend.SymbolTable
