import Mathlib.Logic.Relation
import Frontend.Proofs.SymbolTable.Invariant

set_option autoImplicit false

namespace Frontend.SymbolTable

open Relation

def ChildOf (table : SymbolTable) (inner outer : ScopeId) : Prop := table.parent? inner = some outer

-- The chain of parents of `inner`, itself included, contains `outer`.
def Encloses (table : SymbolTable) (outer inner : ScopeId) : Prop := ReflTransGen table.ChildOf inner outer

theorem encloses_live (table : SymbolTable) (outer inner : ScopeId) (enclosed : table.Encloses outer inner)
    (live : table.contains outer = true) : table.contains inner = true := by
  rcases enclosed.cases_head with same | ⟨next, link, _⟩
  · rw [same]
    exact live
  · exact contains_of_parent table inner next link

theorem linked_reaches_root (table : SymbolTable) (linked : table.Linked) (id : ScopeId)
    (live : table.contains id = true) :
    ∃ root, table.Encloses root id ∧ table.contains root = true ∧ table.parent? root = none := by
  obtain ⟨rank, ranked⟩ := linked.ranked
  induction height : rank id using Nat.strongRecOn generalizing id with
  | ind bound ih =>
      cases link : table.parent? id with
      | none => exact ⟨id, .refl, live, link⟩
      | some outer =>
          have above := linked_parent_live table linked id outer link
          obtain ⟨root, enclosed, rest⟩ := ih (rank outer) (height ▸ ranked id outer link) outer above rfl
          exact ⟨root, .head link enclosed, rest⟩

theorem linked_encloses_live (table : SymbolTable) (linked : table.Linked) (outer inner : ScopeId)
    (enclosed : table.Encloses outer inner) (live : table.contains inner = true) : table.contains outer = true := by
  induction enclosed with
  | refl => exact live
  | tail _ link _ => exact linked_parent_live table linked _ _ link

-- The scopes that a sweep from the ids in `cut` comes to. An id in a list stands for the scope in its slot,
-- whichever that is: a sweep does not look at generations.
inductive Meets (table : SymbolTable) (cut : List ScopeId) : ScopeId → Prop where
  | waiting (listed id : ScopeId) (member : listed ∈ cut) (same : id.slot = listed.slot)
      (live : table.contains id = true) : Meets table cut id
  | nested (outer listed id : ScopeId) (above : Meets table cut outer) (member : listed ∈ table.children outer)
      (same : id.slot = listed.slot) (live : table.contains id = true) : Meets table cut id

theorem meets_live (table : SymbolTable) (cut : List ScopeId) (id : ScopeId) (met : table.Meets cut id) :
    table.contains id = true := by
  cases met with
  | waiting _ _ _ _ live => exact live
  | nested _ _ _ _ _ _ live => exact live

theorem live_same_slot (table : SymbolTable) (a b : ScopeId) (left : table.contains a = true)
    (right : table.contains b = true) (same : a.slot = b.slot) : a = b := by
  obtain ⟨scope, readLeft⟩ := (contains_iff table a).mp left
  obtain ⟨other, readRight⟩ := (contains_iff table b).mp right
  exact slot_holds_one table a b scope other readLeft readRight same

theorem linked_encloses_meets (table : SymbolTable) (linked : table.Linked) (top id : ScopeId)
    (live : table.contains top = true) (enclosed : table.Encloses top id) : table.Meets [top] id := by
  induction enclosed using ReflTransGen.head_induction_on with
  | refl => exact .waiting top top List.mem_cons_self rfl live
  | @head inner outer link _ ih =>
      exact .nested outer inner inner ih (linked.listed inner outer link) rfl (contains_of_parent table inner outer link)

-- While every scope lists its own children only, a sweep stays below the scope that it starts from.
theorem nested_meets_encloses (table : SymbolTable) (nested : table.Nested) (top id : ScopeId)
    (live : table.contains top = true) (met : table.Meets [top] id) : table.Encloses top id := by
  induction met with
  | waiting listed id member same present =>
      rw [List.mem_singleton.mp member] at same
      rw [live_same_slot table id top present live same]
      exact .refl
  | nested outer listed id _ member same present ih =>
      have link := nested.owned outer listed member
      rw [live_same_slot table id listed present (contains_of_parent table listed outer link) same]
      exact .head link ih

-- The two turns of a sweep. An id whose slot is empty is passed over.
theorem meets_skip (table : SymbolTable) (listed : ScopeId) (pending : List ScopeId)
    (empty : ∀ id, id.slot = listed.slot → table.contains id = false) (id : ScopeId) :
    table.Meets (listed :: pending) id ↔ table.Meets pending id := by
  constructor
  · intro met
    induction met with
    | waiting other id member same live =>
        rcases List.mem_cons.mp member with first | later
        · rw [empty id (same.trans (congrArg ScopeId.slot first))] at live
          cases live
        · exact .waiting other id later same live
    | nested outer other id _ member same live ih => exact .nested outer other id ih member same live
  · intro met
    induction met with
    | waiting other id member same live => exact .waiting other id (List.mem_cons_of_mem listed member) same live
    | nested outer other id _ member same live ih => exact .nested outer other id ih member same live

-- Otherwise the scope in the slot goes, and its children take its place in the work list.
theorem meets_release (table next : SymbolTable) (listed here : ScopeId) (pending : List ScopeId)
    (sameSlot : here.slot = listed.slot) (present : table.contains here = true)
    (contained : ∀ other, next.contains other = true ↔ table.contains other = true ∧ other ≠ here)
    (lists : ∀ other, next.children other = if other = here then [] else table.children other) (id : ScopeId) :
    table.Meets (listed :: pending) id ↔ id = here ∨ next.Meets ((table.children here).reverse ++ pending) id := by
  have start : table.Meets (listed :: pending) here := .waiting listed here List.mem_cons_self sameSlot present
  constructor
  · intro met
    induction met with
    | waiting other id member same live =>
        by_cases isHere : id = here
        · exact Or.inl isHere
        · have stays := (contained id).mpr ⟨live, isHere⟩
          rcases List.mem_cons.mp member with first | later
          · rw [first, ← sameSlot] at same
            exact absurd (live_same_slot table id here live present same) isHere
          · exact Or.inr (.waiting other id (List.mem_append_right _ later) same stays)
    | nested outer other id _ member same live ih =>
        by_cases isHere : id = here
        · exact Or.inl isHere
        · have stays := (contained id).mpr ⟨live, isHere⟩
          rcases ih with first | later
          · rw [first] at member
            exact Or.inr (.waiting other id (List.mem_append_left _ (List.mem_reverse.mpr member)) same stays)
          · have apart := ((contained outer).mp (meets_live next _ outer later)).2
            refine Or.inr (.nested outer other id later ?_ same stays)
            rw [lists, if_neg apart]
            exact member
  · rintro (rfl | met)
    · exact start
    · induction met with
      | waiting other id member same live =>
          have before := ((contained id).mp live).1
          rcases List.mem_append.mp member with child | later
          · exact .nested here other id start (List.mem_reverse.mp child) same before
          · exact .waiting other id (List.mem_cons_of_mem listed later) same before
      | nested outer other id _ member same live ih =>
          rw [lists] at member
          split at member
          · cases member
          · exact .nested outer other id ih member same ((contained id).mp live).1

-- It makes no difference to a sweep that its first scope has been struck from a list before.
theorem meets_detached (table next : SymbolTable) (top : ScopeId) (lives : ∀ id, next.contains id = table.contains id)
    (shorter : ∀ id child, child ∈ next.children id → child ∈ table.children id)
    (onlyTop : ∀ id child, child ∈ table.children id → child ∈ next.children id ∨ child = top) (id : ScopeId) :
    next.Meets [top] id ↔ table.Meets [top] id := by
  constructor
  · intro met
    induction met with
    | waiting listed id member same live => exact .waiting listed id member same (lives id ▸ live)
    | nested outer listed id _ member same live ih =>
        exact .nested outer listed id ih (shorter outer listed member) same (lives id ▸ live)
  · intro met
    induction met with
    | waiting listed id member same live => exact .waiting listed id member same ((lives id).trans live)
    | nested outer listed id _ member same live ih =>
        rcases onlyTop outer listed member with kept | struck
        · exact .nested outer listed id ih kept same ((lives id).trans live)
        · exact .waiting listed id (List.mem_singleton.mpr struck) same ((lives id).trans live)

end Frontend.SymbolTable
