import Frontend.Options.Basic
import Frontend.Tree.Basic

set_option autoImplicit false

namespace Frontend

structure LayoutChange where
  indentWidth : Option Nat := none
  newLine : Option String := none

def LayoutChange.apply (change : LayoutChange) (layout : Layout) : Layout where
  indentWidth := change.indentWidth.getD layout.indentWidth
  newLine := change.newLine.getD layout.newLine

inductive Rendering where
  | outline
  | markup
deriving DecidableEq

inductive TableCommand where
  -- Registers keep their ids.
  | reset
  | scope (parent : Option String) (into : Option String)
  | hide (scope : String)
  | destroy (scope : String)
  | insert (scope name : String) (type : ValueType) (into : Option String)
  | lookupLocal (scope name : String) (into : Option String)
  | lookupLexical (scope name : String) (into : Option String)
  | record (symbol : String)
  | setValue (symbol : String) (value : Double)
  | scopeInfo (scope : String)

inductive BuildCommand where
  | literal (value : Literal)
  | reference (symbol : Option String)
  | assignment (symbol : Option String)
  | binary (operator : String)
  | sequence
  | unary (operator : String)
  | input
  | output
  | branch (hasThen hasElse : Bool)
  | loop (hasBody : Bool)
  | function (hasBody : Bool)
  | jump
  | ret

-- Trees put together outside of the budget.
inductive AssembleCommand where
  | binary (kind : BinaryKind) (operator : String) (type : Option ValueType)
  | unary (kind : UnaryKind) (operator : String) (type : Option ValueType)
  | flow (kind : FlowKind) (hasCondition hasThen hasElse : Bool)

inductive StackCommand where
  | duplicate
  | swap
  | drop
  | same
  | release
  | releaseInOrder

inductive TreeQuery where
  | count
  | handles
  | inspect
  | visit
  | print
  | render (rendering : Rendering) (change : LayoutChange) (times : Nat)
  | renderInto (rendering : Rendering) (change : LayoutChange) (capacity : Nat)

inductive Command where
  | table (command : TableCommand)
  | build (command : BuildCommand)
  | assemble (command : AssembleCommand)
  | stack (command : StackCommand)
  | query (query : TreeQuery)

end Frontend
