import Frontend.Markup.Basic
import Frontend.Outline
import Frontend.Session.Command
import Frontend.Session.Reply
import Frontend.SymbolTable.Scopes
import Frontend.Tree.Release
import Frontend.Tree.Walk

set_option autoImplicit false

namespace Frontend

structure Registers (α : Type) where
  entries : List (String × α) := []

namespace Registers

def get? {α : Type} (registers : Registers α) (name : String) : Option α :=
  registers.entries.lookup name

def set {α : Type} (registers : Registers α) (name : String) (value : α) : Registers α where
  entries := (name, value) :: registers.entries.filter fun entry => entry.1 != name

def store {α : Type} (registers : Registers α) (name : Option String) (value : α) : Registers α :=
  match name with
  | none => registers
  | some name => registers.set name value

end Registers

structure Session where
  layout : Layout := {}
  table : SymbolTable := {}
  builder : Builder := {}
  stack : List Tree := []
  scopes : Registers ScopeId := {}
  symbols : Registers Handle := {}

namespace Session

def start (options : Options) : Session where
  layout := options.printer
  builder := { limits := options.build }

def depth (session : Session) : Nat :=
  session.stack.length

def storeHandle (session : Session) (into : Option String) (handle : Option Handle) : Session :=
  match handle with
  | none => session
  | some handle => { session with symbols := session.symbols.store into handle }

def createScope (session : Session) (parent : Option ScopeId) (into : Option String) :
    Reply × Session :=
  match session.table.createScope parent with
  | (.error error, table) =>
    (.scopeRefused error table.scopeCount, { session with table := table })
  | (.ok id, table) =>
    (.scopeCreated id table.scopeCount,
      { session with table := table, scopes := session.scopes.store into id })

def declare (session : Session) (id : ScopeId) (name : String) (type : ValueType)
    (into : Option String) : Reply × Session :=
  match session.table.insert id name type with
  | (.error error, table) =>
    (.declarationRefused error (table.size id), { session with table := table })
  | (.ok handle, table) =>
    (.declared handle (table.size id),
      { session with table := table, symbols := session.symbols.store into handle })

def scopeInfo (table : SymbolTable) (id : ScopeId) : ScopeInfo where
  id := id
  present := table.contains id
  parent := table.parent? id
  children := table.children id
  hidden := table.isHidden id
  size := table.size id
  isEmpty := table.isEmpty id
  scope := table.scope? id

def withScope (session : Session) (name : String) (use : ScopeId → Reply × Session) :
    Reply × Session :=
  match session.scopes.get? name with
  | none => (.noRegister, session)
  | some id => use id

def withSymbol (session : Session) (name : String) (use : Handle → Reply × Session) :
    Reply × Session :=
  match session.symbols.get? name with
  | none => (.noRegister, session)
  | some handle => use handle

def execTable (session : Session) : TableCommand → Reply × Session
  | .reset => (.scopes SymbolTable.empty.scopeCount, { session with table := .empty })
  | .scope none into => session.createScope none into
  | .scope (some parent) into =>
    session.withScope parent fun id => session.createScope (some id) into
  | .hide scope =>
    session.withScope scope fun id =>
      let (done, table) := session.table.hide id
      (.hidden done, { session with table := table })
  | .destroy scope =>
    session.withScope scope fun id =>
      let (released, table) := session.table.destroy id
      (.destroyed released table.scopeCount, { session with table := table })
  | .insert scope name type into =>
    session.withScope scope fun id => session.declare id name type into
  | .lookupLocal scope name into =>
    session.withScope scope fun id =>
      let handle := session.table.lookupLocal id name
      (.found handle, session.storeHandle into handle)
  | .lookupLexical scope name into =>
    session.withScope scope fun id =>
      let handle := session.table.lookupLexical id name
      (.found handle, session.storeHandle into handle)
  | .record symbol =>
    session.withSymbol symbol fun handle =>
      (.record handle (session.table.nameOf? handle) (session.table.record? handle), session)
  | .setValue symbol value =>
    session.withSymbol symbol fun handle =>
      let (done, table) := session.table.setValue handle value
      (.stored done, { session with table := table })
  | .scopeInfo scope =>
    session.withScope scope fun id => (.scopeInfo (scopeInfo session.table id), session)

def handleOf (session : Session) : Option String → Except Reply (Option Handle)
  | none => .ok none
  | some name =>
    match session.symbols.get? name with
    | none => .error .noRegister
    | some handle => .ok (some handle)

def pop : List Tree → Except Reply (Tree × List Tree)
  | [] => .error .stackUnderflow
  | tree :: stack => .ok (tree, stack)

def popPart (present : Bool) (stack : List Tree) : Except Reply (Option Tree × List Tree) :=
  if present then
    match pop stack with
    | .error reply => .error reply
    | .ok (tree, stack) => .ok (some tree, stack)
  else .ok (none, stack)

-- The parts come off the stack, the last one first.
def production (session : Session) : BuildCommand → Except Reply (Production × List Tree)
  | .literal value => .ok (.literal value, session.stack)
  | .reference symbol => do
    let handle ← session.handleOf symbol
    return (.reference handle, session.stack)
  | .assignment symbol => do
    let handle ← session.handleOf symbol
    let (value, stack) ← pop session.stack
    return (.assignment handle value, stack)
  | .binary operator => do
    let (right, stack) ← pop session.stack
    let (left, stack) ← pop stack
    return (.binary operator left right, stack)
  | .sequence => do
    let (right, stack) ← pop session.stack
    let (left, stack) ← pop stack
    return (.sequence left right, stack)
  | .unary operator => do
    let (operand, stack) ← pop session.stack
    return (.unary operator operand, stack)
  | .input => do
    let (target, stack) ← pop session.stack
    return (.input target, stack)
  | .output => do
    let (value, stack) ← pop session.stack
    return (.output value, stack)
  | .branch hasThen hasElse => do
    let (elseBranch, stack) ← popPart hasElse session.stack
    let (thenBranch, stack) ← popPart hasThen stack
    let (condition, stack) ← pop stack
    return (.branch condition thenBranch elseBranch, stack)
  | .loop hasBody => do
    let (body, stack) ← popPart hasBody session.stack
    let (condition, stack) ← pop stack
    return (.loop condition body, stack)
  | .function hasBody => do
    let (body, stack) ← popPart hasBody session.stack
    return (.function body, stack)
  | .jump => .ok (.jump, session.stack)
  | .ret => .ok (.ret, session.stack)

def push (session : Session) (tree : Tree) : Reply × Session :=
  let session := { session with stack := tree :: session.stack }
  (.pushed tree.kind tree.type session.builder.allocated session.depth, session)

-- The parts are used up even if the builder fails.
def execBuild (session : Session) (command : BuildCommand) : Except Halt (Reply × Session) :=
  match session.production command with
  | .error reply => .ok (reply, session)
  | .ok (production, stack) =>
    match session.builder.build session.table production with
    | .error halt => .error halt
    | .ok (.error error, builder) =>
      .ok (.notBuilt error builder.allocated stack.length,
        { session with builder := builder, stack := stack })
    | .ok (.ok tree, builder) =>
      .ok ({ session with builder := builder, stack := stack }.push tree)

def assembly (session : Session) : AssembleCommand → Except Reply (Tree × List Tree)
  | .binary kind operator type =>
    match Label.ofText operator with
    | .error error => .error (.notAssembled (.invalidOperator error))
    | .ok label => do
      let (right, stack) ← pop session.stack
      let (left, stack) ← pop stack
      return (.binary kind label type left right, stack)
  | .unary kind operator type =>
    match Label.ofText operator with
    | .error error => .error (.notAssembled (.invalidOperator error))
    | .ok label => do
      let (operand, stack) ← pop session.stack
      return (.unary kind label type operand, stack)
  | .flow kind hasCondition hasThen hasElse => do
    let (elseBranch, stack) ← popPart hasElse session.stack
    let (thenBranch, stack) ← popPart hasThen stack
    let (condition, stack) ← popPart hasCondition stack
    return (.flow kind condition thenBranch elseBranch, stack)

def execAssemble (session : Session) (command : AssembleCommand) : Reply × Session :=
  match session.assembly command with
  | .error reply => (reply, session)
  | .ok (tree, stack) => { session with stack := stack }.push tree

def execStack (session : Session) (command : StackCommand) : Reply × Session :=
  match command, session.stack with
  | .duplicate, tree :: _ => session.push tree
  | .swap, first :: second :: stack =>
    let session := { session with stack := second :: first :: stack }
    (.depth session.depth, session)
  | .drop, _ :: stack =>
    let session := { session with stack := stack }
    (.depth session.depth, session)
  | .same, second :: first :: _ => (.same (first.same second), session)
  | .release, tree :: stack =>
    (.released tree.release stack.length, { session with stack := stack })
  | .releaseInOrder, tree :: stack =>
    (.releasedInOrder tree.release stack.length tree.releaseOrder, { session with stack := stack })
  | _, _ => (.stackUnderflow, session)

def narrator : Visitor (Array String) where
  binary _ op _ left right log := right ((left log).push ("binary " ++ op.text))
  unary _ op _ operand log := (operand log).push ("unary " ++ op.text)
  literal value log := log.push ("literal " ++ value.type.text)
  reference _ symbol log := log.push (if symbol.isSome then "reference true" else "reference false")
  jump log := log.push "jump"
  ret log := log.push "return"

def narration (tree : Tree) : Array String :=
  tree.walk narrator #[]

def renderWith (session : Session) (rendering : Rendering) (change : LayoutChange) (tree : Tree) :
    String :=
  match rendering with
  | .outline => Outline.render (change.apply session.layout) session.table tree
  | .markup => Markup.render (change.apply session.layout) session.table tree

def answer (session : Session) (tree : Tree) : TreeQuery → Reply
  | .count => .count tree.count
  | .handles => .handles tree.handles
  | .inspect => .inspected tree
  | .visit => .visited (tree.visited.map Tree.kind) (narration tree)
  | .print =>
    .printed (Outline.render {} session.table tree) (Markup.render {} session.table tree)
  | .render rendering change times =>
    .texts (List.replicate times (session.renderWith rendering change tree))
  | .renderInto rendering change capacity =>
    .written (Written.ofText capacity (session.renderWith rendering change tree))

def execQuery (session : Session) (query : TreeQuery) : Reply :=
  match session.stack with
  | [] => .stackUnderflow
  | tree :: _ => session.answer tree query

def exec (session : Session) : Command → Except Halt (Reply × Session)
  | .table command => .ok (session.execTable command)
  | .build command => session.execBuild command
  | .assemble command => .ok (session.execAssemble command)
  | .stack command => .ok (session.execStack command)
  | .query query => .ok (session.execQuery query, session)

end Session

end Frontend
