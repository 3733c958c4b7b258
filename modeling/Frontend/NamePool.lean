set_option autoImplicit false

namespace Frontend

structure NamePool where
  names : List String := []

namespace NamePool

abbrev Key := Nat

def empty : NamePool := {}

def find? (pool : NamePool) (name : String) : Option Key :=
  pool.names.idxOf? name

def name? (pool : NamePool) (key : Key) : Option String :=
  pool.names[key]?

def intern (pool : NamePool) (name : String) : Key × NamePool :=
  match pool.find? name with
  | some key => (key, pool)
  | none => (pool.names.length, { names := pool.names ++ [name] })

def size (pool : NamePool) : Nat :=
  pool.names.length

def isEmpty (pool : NamePool) : Bool :=
  pool.names.isEmpty

end NamePool

end Frontend
