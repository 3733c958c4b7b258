import Frontend.Double.Basic
import Frontend.Message
import Frontend.NamePool
import Frontend.ValueType

set_option autoImplicit false

namespace Frontend

structure ScopeId where
  index : UInt32
  generation : Nat
deriving DecidableEq

def ScopeId.slot (id : ScopeId) : Nat :=
  id.index.toNat

def ScopeId.text (id : ScopeId) : String :=
  "#" ++ Decimal.text id.slot ++ "." ++ Decimal.text id.generation

structure Handle where
  scope : ScopeId
  index : Nat
deriving DecidableEq

structure Record where
  name : NamePool.Key
  type : ValueType
  value : Double

structure Scope where
  parent : Option ScopeId
  hidden : Bool := false
  records : List Record := []
  children : List ScopeId := []

namespace Scope

def size (scope : Scope) : Nat :=
  scope.records.length

def isEmpty (scope : Scope) : Bool :=
  scope.records.isEmpty

def indexOf? (scope : Scope) (key : NamePool.Key) : Option Nat :=
  scope.records.findIdx? fun record => record.name == key

end Scope

structure Slot where
  generation : Nat
  scope : Option Scope

-- After its last generation a slot stays empty.
def Slot.lastGeneration : Nat := UInt32.size - 1

def Slot.vacate (slot : Slot) : Slot where
  generation :=
    if slot.generation < Slot.lastGeneration then slot.generation + 1 else slot.generation
  scope := none

structure SymbolTable where
  slots : Array Slot := #[]
  -- The slot emptied last stands in front.
  free : List UInt32 := []
  names : NamePool := {}
  live : Nat := 0

namespace SymbolTable

def empty : SymbolTable := {}

def scope? (table : SymbolTable) (id : ScopeId) : Option Scope :=
  match table.slots[id.slot]? with
  | none => none
  | some slot => if slot.generation = id.generation then slot.scope else none

def contains (table : SymbolTable) (id : ScopeId) : Bool :=
  (table.scope? id).isSome

def parent? (table : SymbolTable) (id : ScopeId) : Option ScopeId :=
  (table.scope? id).bind Scope.parent

def children (table : SymbolTable) (id : ScopeId) : List ScopeId :=
  match table.scope? id with
  | none => []
  | some scope => scope.children

def isHidden (table : SymbolTable) (id : ScopeId) : Bool :=
  match table.scope? id with
  | none => false
  | some scope => scope.hidden

def size (table : SymbolTable) (id : ScopeId) : Nat :=
  match table.scope? id with
  | none => 0
  | some scope => scope.size

def isEmpty (table : SymbolTable) (id : ScopeId) : Bool :=
  table.size id == 0

def scopeCount (table : SymbolTable) : Nat :=
  table.live

def modifyScope (table : SymbolTable) (id : ScopeId) (change : Scope → Scope) : SymbolTable :=
  match table.scope? id with
  | none => table
  | some scope =>
    { table with slots := table.slots.setIfInBounds id.slot ⟨id.generation, some (change scope)⟩ }

end SymbolTable

inductive TableError where
  | duplicateName (name : String)
  | unknownScope (id : ScopeId)
  | outOfSpace (what : String)
deriving DecidableEq

namespace TableError

def message : TableError → String
  | .duplicateName name => "duplicate identifier '" ++ name ++ "'"
  | .unknownScope id => "scope " ++ id.text ++ " no longer exists"
  | .outOfSpace what => "out of space while allocating " ++ what

def diagnostic : TableError → Diagnostic
  | .duplicateName name => .ofMessage .duplicateIdentifier [name]
  | .unknownScope id => .ofMessage .scopeNoLongerExists [id.text]
  | .outOfSpace what => .ofMessage .outOfSpace [what]

end TableError

end Frontend
