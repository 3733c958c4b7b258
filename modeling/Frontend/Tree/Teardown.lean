import Frontend.Tree.Basic

set_option autoImplicit false

namespace Frontend.Tree

def owns : Tree → Bool
  | .binary _ _ _ _ _ => true
  | .unary _ _ _ _ => true
  | .assignment _ _ => true
  | .flow _ _ _ _ => true
  | _ => false

structure Teardown where
  pending : List Tree := []
  popped : Array Tree := #[]
  discarded : Array Tree := #[]

namespace Teardown

def queue (teardown : Teardown) (tree : Tree) : Teardown :=
  if tree.owns then { teardown with pending := tree :: teardown.pending }
  else { teardown with discarded := teardown.discarded.push tree }

def detach (teardown : Teardown) (place : Tree) : Teardown × Tree :=
  (teardown.queue place, .jump)

def detachPart (teardown : Teardown) : Option Tree → Teardown × Option Tree
  | none => (teardown, none)
  | some tree => (teardown.queue tree, none)

-- The last child goes first. The second result is what is left of the tree.
def strip (teardown : Teardown) : Tree → Teardown × Tree
  | .binary kind op type left right =>
    let (teardown, right) := teardown.detach right
    let (teardown, left) := teardown.detach left
    (teardown, .binary kind op type left right)
  | .unary kind op type operand =>
    let (teardown, operand) := teardown.detach operand
    (teardown, .unary kind op type operand)
  | .assignment target value =>
    let (teardown, value) := teardown.detach value
    (teardown, .assignment target value)
  | .flow kind condition thenBranch elseBranch =>
    let (teardown, elseBranch) := teardown.detachPart elseBranch
    let (teardown, thenBranch) := teardown.detachPart thenBranch
    let (teardown, condition) := teardown.detachPart condition
    (teardown, .flow kind condition thenBranch elseBranch)
  | tree => (teardown, tree)

end Teardown

structure Drop where
  tree : Tree
  work : Teardown
  -- What the tree still holds. It is dropped when the work list is empty.
  places : List Tree

def Drop.start (tree : Tree) : Drop :=
  let (work, rest) := Teardown.strip {} tree
  ⟨tree, work, rest.children⟩

abbrev Drops := List Drop

namespace Drops

def enter (drops : Drops) (tree : Tree) : Drops :=
  if tree.owns then .start tree :: drops else drops

-- The innermost drop takes a tree off its work list and drops what is left of it, or drops what one of its own places holds, or
-- ends. The outermost one has nobody to return to.
def step : Drops → Option Drops
  | [] => none
  | drop :: outer =>
    match drop.work.pending, drop.places with
    | tree :: pending, _ =>
      let (work, rest) :=
        Teardown.strip { drop.work with pending := pending, popped := drop.work.popped.push tree } tree
      some (enter ({ drop with work := work } :: outer) rest)
    | [], place :: places => some (enter ({ drop with places := places } :: outer) place)
    | [], [] => if outer.isEmpty then none else some outer

def run : Nat → Drops → Drops
  | 0, drops => drops
  | steps + 1, drops =>
    match drops.step with
    | none => drops
    | some next => run steps next

end Drops

end Frontend.Tree
