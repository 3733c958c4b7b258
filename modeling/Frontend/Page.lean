import Frontend.Options.Basic

set_option autoImplicit false

namespace Frontend

structure Line where
  level : Nat
  text : String

def Line.render (layout : Layout) (line : Line) : String :=
  String.ofList (List.replicate (line.level * layout.indentWidth) ' ') ++ line.text
    ++ layout.newLine

abbrev Page := List Line

def Page.render (layout : Layout) (page : Page) : String :=
  String.join (page.map (Line.render layout))

-- What reached a sink of limited size, and whether that was all of it.
structure Written where
  bytes : ByteArray
  complete : Bool

def Written.ofText (capacity : Nat) (text : String) : Written :=
  let bytes := text.toUTF8
  ⟨bytes.extract 0 capacity, decide (bytes.size ≤ capacity)⟩

end Frontend
