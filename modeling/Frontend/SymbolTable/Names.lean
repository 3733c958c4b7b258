import Frontend.SymbolTable.Basic

set_option autoImplicit false

namespace Frontend.SymbolTable

def insert (table : SymbolTable) (id : ScopeId) (name : String) (type : ValueType) :
    Except TableError Handle × SymbolTable :=
  match table.scope? id with
  | none => (.error (.unknownScope id), table)
  | some scope =>
    if ((table.names.find? name).bind scope.indexOf?).isSome then
      (.error (.duplicateName name), table)
    else
      let (key, names) := table.names.intern name
      let record : Record := ⟨key, type, Double.zero⟩
      (.ok ⟨id, scope.size⟩,
        { table with names := names }.modifyScope id fun scope =>
          { scope with records := scope.records ++ [record] })

def lookupLocal (table : SymbolTable) (id : ScopeId) (name : String) : Option Handle :=
  match table.names.find? name with
  | none => none
  | some key =>
    match table.scope? id with
    | none => none
    | some scope => (scope.indexOf? key).map fun index => ⟨id, index⟩

def climb (table : SymbolTable) (key : NamePool.Key) : Nat → ScopeId → Option Handle
  | 0, _ => none
  | steps + 1, id =>
    match table.scope? id with
    | none => none
    | some scope =>
      match scope.indexOf? key with
      | some index => some ⟨id, index⟩
      | none =>
        match scope.parent with
        | none => none
        | some outer => table.climb key steps outer

-- No scope is its own ancestor, so there are no more scopes to look at than slots.
def lookupLexical (table : SymbolTable) (id : ScopeId) (name : String) : Option Handle :=
  match table.names.find? name with
  | none => none
  | some key => table.climb key table.slots.size id

def record? (table : SymbolTable) (handle : Handle) : Option Record :=
  match table.scope? handle.scope with
  | none => none
  | some scope => scope.records[handle.index]?

def nameOf? (table : SymbolTable) (handle : Handle) : Option String :=
  (table.record? handle).bind fun record => table.names.name? record.name

def typeOf? (table : SymbolTable) (handle : Handle) : Option ValueType :=
  (table.record? handle).map Record.type

def badReference : String := "(bad reference)"

def shownName (table : SymbolTable) (symbol : Option Handle) : String :=
  (symbol.bind table.nameOf?).getD badReference

def setValue (table : SymbolTable) (handle : Handle) (value : Double) : Bool × SymbolTable :=
  ((table.record? handle).isSome,
    table.modifyScope handle.scope fun scope =>
      { scope with
        records := scope.records.modify handle.index fun record => { record with value := value } })

end Frontend.SymbolTable
