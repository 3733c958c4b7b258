set_option autoImplicit false

namespace Frontend

-- When space runs out, the program ends or the caller is told.
inductive Policy where
  | abort
  | propagate
deriving DecidableEq

inductive Halt where
  | outOfSpace (what : String)
deriving DecidableEq

def Halt.message : Halt → String
  | .outOfSpace what => "out of space: " ++ what

def Policy.exhausted : Policy → String → Except Halt Unit
  | .abort, what => .error (.outOfSpace what)
  | .propagate, _ => .ok ()

structure BuildLimits where
  policy : Policy := .abort
  maxNodes : Option Nat := none
deriving DecidableEq

structure Layout where
  indentWidth : Nat := 2
  newLine : String := "\n"
deriving DecidableEq

structure Options where
  build : BuildLimits := {}
  printer : Layout := {}
deriving DecidableEq

end Frontend
