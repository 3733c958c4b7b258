import Frontend.SymbolTable.Basic

set_option autoImplicit false
set_option linter.unusedVariables false

namespace Frontend.SymbolTable

def place (table : SymbolTable) (scope : Scope) : ScopeId × SymbolTable :=
  match table.free with
  | index :: free =>
    let generation := (table.slots[index.toNat]?.map Slot.generation).getD 0
    (⟨index, generation⟩,
      { table with
        slots := table.slots.setIfInBounds index.toNat ⟨generation, some scope⟩
        free := free
        live := table.live + 1 })
  -- The number of the new slot is cut to the width of an index, so past the last index the ids start over.
  | [] =>
    (⟨UInt32.ofNat table.slots.size, 0⟩,
      { table with slots := table.slots.push ⟨0, some scope⟩, live := table.live + 1 })

def createScope (table : SymbolTable) (parent : Option ScopeId) :
    Except TableError ScopeId × SymbolTable :=
  match parent with
  | none =>
    let (id, table) := table.place { parent := none }
    (.ok id, table)
  | some outer =>
    if table.contains outer then
      let (id, table) := table.place { parent := some outer }
      (.ok id,
        table.modifyScope outer fun scope => { scope with children := scope.children ++ [id] })
    else
      (.error (.unknownScope outer), table)

-- Look-ups do not ask for the mark.
def hide (table : SymbolTable) (id : ScopeId) : Bool × SymbolTable :=
  (table.contains id, table.modifyScope id fun scope => { scope with hidden := true })

structure Sweep where
  slots : Array Slot
  free : List UInt32
  released : Nat

def Sweep.release (sweep : Sweep) (index : UInt32) (slot : Slot) : Sweep where
  slots := sweep.slots.setIfInBounds index.toNat slot.vacate
  free := if slot.generation < Slot.lastGeneration then index :: sweep.free else sweep.free
  released := sweep.released + 1

def occupied (slots : Array Slot) : Nat :=
  slots.countP fun slot => slot.scope.isSome

theorem occupied_release {sweep : Sweep} {index : UInt32} {slot : Slot} {scope : Scope}
    (found : sweep.slots[index.toNat]? = some slot) (present : slot.scope = some scope) :
    occupied (sweep.release index slot).slots < occupied sweep.slots := by
  obtain ⟨bound, same⟩ := Array.getElem?_eq_some_iff.mp found
  have positive : 0 < sweep.slots.countP fun slot => slot.scope.isSome := by
    refine Array.countP_pos_iff.mpr ⟨slot, ?_, by simp [present]⟩
    rw [← same]
    exact Array.getElem_mem bound
  simp only [occupied, Sweep.release, Array.setIfInBounds, bound, dif_pos, Array.countP_set, same,
    present, Slot.vacate, Option.isSome_some, Option.isSome_none, if_true]
  simp only [Bool.false_eq_true, if_false, Nat.add_zero]
  omega

-- The last child goes first.
def Sweep.run (sweep : Sweep) : List ScopeId → Sweep
  | [] => sweep
  | id :: pending =>
    match found : sweep.slots[id.slot]? with
    | none => sweep.run pending
    | some slot =>
      match present : slot.scope with
      | none => sweep.run pending
      | some scope => (sweep.release id.index slot).run (scope.children.reverse ++ pending)
termination_by pending => (occupied sweep.slots, pending.length)
decreasing_by
  · exact Prod.Lex.right _ (Nat.lt_succ_self _)
  · exact Prod.Lex.right _ (Nat.lt_succ_self _)
  · exact Prod.Lex.left _ _ (occupied_release found present)

def detach (table : SymbolTable) (parent : Option ScopeId) (id : ScopeId) : SymbolTable :=
  match parent with
  | none => table
  | some outer =>
    table.modifyScope outer fun scope =>
      { scope with children := scope.children.filter (· != id) }

def destroy (table : SymbolTable) (id : ScopeId) : Nat × SymbolTable :=
  match table.scope? id with
  | none => (0, table)
  | some scope =>
    let table := table.detach scope.parent id
    let sweep := Sweep.run ⟨table.slots, table.free, 0⟩ [id]
    (sweep.released,
      { table with
        slots := sweep.slots
        free := sweep.free
        live := table.live - sweep.released })

end Frontend.SymbolTable
