import Frontend.Decimal.Numeral
import Frontend.Text.Replace

set_option autoImplicit false

namespace Frontend

inductive Category where
  | warning
  | error
  | message
deriving DecidableEq

def Category.text : Category → String
  | .warning => "warning"
  | .error => "error"
  | .message => "message"

structure Message where
  code : Nat
  category : Category
  template : String

namespace Message

def hole (index : Nat) : String :=
  "\x7b" ++ Decimal.text index ++ "\x7d"

-- A later argument also fills the holes that an earlier one brought in.
def fill (template : String) (arguments : List String) : String :=
  arguments.zipIdx.foldl (fun text entry => Text.replace (hole entry.2) entry.1 text) template

def duplicateIdentifier : Message :=
  ⟨2300, .error, "Duplicate identifier '" ++ hole 0 ++ "'."⟩

def scopeNoLongerExists : Message :=
  ⟨2301, .error, "Scope " ++ hole 0 ++ " no longer exists."⟩

def operatorTooLong : Message :=
  ⟨2400, .error, "Operator '" ++ hole 0 ++ "' is longer than " ++ hole 1 ++ " bytes."⟩

def outOfSpace : Message :=
  ⟨9000, .error, "Out of space while allocating " ++ hole 0 ++ "."⟩

def nodeBudgetExceeded : Message :=
  ⟨9001, .warning, "Node budget of " ++ hole 0 ++ " exceeded."⟩

end Message

structure Diagnostic where
  file : Option String
  line : Option Nat
  text : String
  code : Nat
  category : Category

namespace Diagnostic

def ofMessage (message : Message) (arguments : List String) : Diagnostic where
  file := none
  line := none
  text := Message.fill message.template arguments
  code := message.code
  category := message.category

def locate (diagnostic : Diagnostic) (file : String) (line : Nat) : Diagnostic :=
  { diagnostic with file := some file, line := some line }

def isError (diagnostic : Diagnostic) : Bool :=
  diagnostic.category == .error

def position (diagnostic : Diagnostic) : String :=
  match diagnostic.file, diagnostic.line with
  | none, _ => ""
  | some file, none => file ++ ": "
  | some file, some line => file ++ ":" ++ Decimal.text line ++ ": "

def display (diagnostic : Diagnostic) : String :=
  diagnostic.position ++ diagnostic.category.text ++ " S" ++ Decimal.text diagnostic.code ++ ": "
    ++ diagnostic.text

end Diagnostic

structure Diagnostics where
  entries : List Diagnostic := []

namespace Diagnostics

def add (diagnostics : Diagnostics) (diagnostic : Diagnostic) : Diagnostics :=
  { entries := diagnostics.entries ++ [diagnostic] }

def size (diagnostics : Diagnostics) : Nat :=
  diagnostics.entries.length

def isEmpty (diagnostics : Diagnostics) : Bool :=
  diagnostics.entries.isEmpty

def hasErrors (diagnostics : Diagnostics) : Bool :=
  diagnostics.entries.any Diagnostic.isError

def errorCount (diagnostics : Diagnostics) : Nat :=
  diagnostics.entries.countP Diagnostic.isError

end Diagnostics

end Frontend
