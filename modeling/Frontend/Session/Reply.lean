import Frontend.Builder
import Frontend.Page

set_option autoImplicit false

namespace Frontend

structure ScopeInfo where
  id : ScopeId
  present : Bool
  parent : Option ScopeId
  children : List ScopeId
  hidden : Bool
  size : Nat
  isEmpty : Bool
  scope : Option Scope

inductive Reply where
  | stackUnderflow
  | noRegister
  | scopes (count : Nat)
  | scopeCreated (id : ScopeId) (scopes : Nat)
  | scopeRefused (error : TableError) (scopes : Nat)
  | hidden (done : Bool)
  | destroyed (released scopes : Nat)
  | declared (handle : Handle) (size : Nat)
  | declarationRefused (error : TableError) (size : Nat)
  | found (handle : Option Handle)
  | record (handle : Handle) (name : Option String) (record : Option Record)
  | stored (done : Bool)
  | scopeInfo (info : ScopeInfo)
  | pushed (kind : Tree.Kind) (type : Option ValueType) (allocated depth : Nat)
  | notBuilt (error : BuildError) (allocated depth : Nat)
  | notAssembled (error : BuildError)
  | depth (depth : Nat)
  | same (equal : Bool)
  | released (count depth : Nat)
  | releasedInOrder (count depth : Nat) (order : Array Tree.Kind)
  | count (count : Nat)
  | handles (handles : Array Handle)
  | inspected (tree : Tree)
  | visited (kinds : Array Tree.Kind) (log : Array String)
  | printed (outline markup : String)
  | texts (texts : List String)
  | written (sink : Written)

namespace Reply

def isError : Reply → Bool
  | .stackUnderflow => true
  | .noRegister => true
  | .scopeRefused _ _ => true
  | .declarationRefused _ _ => true
  | .notBuilt _ _ _ => true
  | .notAssembled _ => true
  | .written sink => !sink.complete
  | _ => false

end Reply

end Frontend
