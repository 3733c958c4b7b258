import Frontend.Proofs.SymbolTable.Run

set_option autoImplicit false

namespace Frontend

inductive Query where
  | contains (id : ScopeId)
  | parent (id : ScopeId)
  | children (id : ScopeId)
  | hidden (id : ScopeId)
  | size (id : ScopeId)
  | isEmpty (id : ScopeId)
  | scopeCount
  | lookupLocal (id : ScopeId) (name : String)
  | lookupLexical (id : ScopeId) (name : String)
  | record (handle : Handle)
  | name (handle : Handle)
  | type (handle : Handle)

inductive Answer where
  | truth (value : Bool)
  | number (value : Nat)
  | scope (id : Option ScopeId)
  | scopes (ids : List ScopeId)
  | handle (found : Option Handle)
  | record (found : Option Record)
  | name (found : Option String)
  | type (found : Option ValueType)

-- Of a record only the type and the value. Its key means nothing outside of the pool that gave it.
def Answer.keyless : Answer → Answer
  | .record found => .record (found.map fun record => { record with name := 0 })
  | answer => answer

inductive Turn where
  | perform (operation : Operation)
  | ask (query : Query)

inductive Response where
  | performed (outcome : Outcome)
  | answered (answer : Answer)

def Response.keyless : Response → Response
  | .answered answer => .answered answer.keyless
  | response => response

namespace SymbolTable

def answer (table : SymbolTable) : Query → Answer
  | .contains id => .truth (table.contains id)
  | .parent id => .scope (table.parent? id)
  | .children id => .scopes (table.children id)
  | .hidden id => .truth (table.isHidden id)
  | .size id => .number (table.size id)
  | .isEmpty id => .truth (table.isEmpty id)
  | .scopeCount => .number table.scopeCount
  | .lookupLocal id name => .handle (table.lookupLocal id name)
  | .lookupLexical id name => .handle (table.lookupLexical id name)
  | .record handle => .record (table.record? handle)
  | .name handle => .name (table.nameOf? handle)
  | .type handle => .type (table.typeOf? handle)

def turn (table : SymbolTable) : Turn → Response × SymbolTable
  | .perform operation => (.performed (table.perform operation).1, (table.perform operation).2)
  | .ask query => (.answered (table.answer query), table)

def transcript (table : SymbolTable) : List Turn → List (Turn × Response)
  | [] => []
  | turn :: turns => (turn, (table.turn turn).1) :: (table.turn turn).2.transcript turns

theorem turn_sound (table : SymbolTable) (turn : Turn) (sound : table.Sound) : (table.turn turn).2.Sound := by
  cases turn with
  | perform operation => exact perform_sound table operation sound
  | ask query => exact sound

end SymbolTable

end Frontend
