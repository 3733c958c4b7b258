import Frontend.Proofs.Builder.Shape
import Frontend.Proofs.SymbolTable.Stability

set_option autoImplicit false

namespace Frontend

namespace SymbolTable

theorem typed_of_record (table : SymbolTable) (handle : Handle) (record : Record)
    (held : table.record? handle = some record) : table.typeOf? handle = some record.type := by
  rw [typeOf?, held]
  rfl

theorem typed_of_name (table : SymbolTable) (handle : Handle) (name : String) (called : table.nameOf? handle = some name) :
    ∃ type, table.typeOf? handle = some type := by
  obtain ⟨record, held, _⟩ := Option.bind_eq_some_iff.mp called
  exact ⟨record.type, typed_of_record table handle record held⟩

theorem spent_untyped (table : SymbolTable) (handle : Handle) (spent : table.Spent handle.scope) :
    table.typeOf? handle = none :=
  ((absent_inert table handle.scope (spent_absent table handle.scope spent)).noRecord handle.index).2.2

theorem perform_typed (table : SymbolTable) (operation : Operation) (sound : table.Sound) (handle : Handle)
    (type : ValueType) (typed : table.typeOf? handle = some type) :
    (table.perform operation).2.typeOf? handle = some type ∨ (table.perform operation).2.Spent handle.scope := by
  obtain ⟨record, held, same⟩ := Option.map_eq_some_iff.mp typed
  obtain ⟨scope, read, _⟩ := (record_iff table handle record).mp held
  have live := contains_of_scope table handle.scope scope read
  cases stays : (table.perform operation).2.contains handle.scope with
  | true =>
      rw [typed_of_record _ handle _ (perform_record table handle record held operation sound stays)]
      exact Or.inl (congrArg some same)
  | false => exact Or.inr (perform_retires table operation sound handle.scope live stays)

theorem after_typed (table : SymbolTable) (operations : List Operation) (sound : table.Sound) (handle : Handle)
    (type : ValueType) (typed : table.typeOf? handle = some type) :
    (table.after operations).typeOf? handle = some type ∨ (table.after operations).Spent handle.scope := by
  induction operations generalizing table with
  | nil => exact Or.inl typed
  | cons operation operations ih =>
      have grown := perform_sound table operation sound
      rcases perform_typed table operation sound handle type typed with kept | spent
      · exact ih _ grown kept
      · exact Or.inr (after_spent _ operations grown handle.scope spent)

-- A handle that the table has given out leads to a record, or never again to anything.
def Settled (table : SymbolTable) (handle : Handle) : Prop :=
  (∃ type, table.typeOf? handle = some type) ∨ table.Spent handle.scope

theorem perform_settled (table : SymbolTable) (operation : Operation) (sound : table.Sound) (handle : Handle)
    (settled : table.Settled handle) : (table.perform operation).2.Settled handle := by
  rcases settled with ⟨type, typed⟩ | spent
  · exact (perform_typed table operation sound handle type typed).imp_left fun kept => ⟨type, kept⟩
  · exact Or.inr (perform_spent table operation sound handle.scope spent)

theorem after_settled (table : SymbolTable) (operations : List Operation) (sound : table.Sound) (handle : Handle)
    (settled : table.Settled handle) : (table.after operations).Settled handle := by
  induction operations generalizing table with
  | nil => exact settled
  | cons operation operations ih =>
      exact ih _ (perform_sound table operation sound) (perform_settled table operation sound handle settled)

theorem local_settled (table : SymbolTable) (sound : table.Sound) (id : ScopeId) (name : String) (handle : Handle)
    (found : table.lookupLocal id name = some handle) : table.Settled handle :=
  Or.inl (typed_of_name table handle name ((lookup_local_iff table sound.named id name handle).mp found).2)

theorem lexical_settled (table : SymbolTable) (sound : table.Sound) (id : ScopeId) (name : String) (handle : Handle)
    (found : table.lookupLexical id name = some handle) : table.Settled handle := by
  cases live : table.contains id with
  | false =>
      rw [((absent_inert table id live).notFound name).2] at found
      cases found
  | true =>
      obtain ⟨chain, linked⟩ := linked_chain table sound.linked id live
      have called := ((chain_resolution table sound id name chain linked).nearest handle found).1
      exact Or.inl (typed_of_name table handle name called)

end SymbolTable

def Outcome.newHandle? : Outcome → Option Handle
  | .inserted (.ok handle) => some handle
  | _ => none

theorem new_handle_settled (table : SymbolTable) (operation : Operation) (sound : table.Sound) (handle : Handle)
    (new : (table.perform operation).1.newHandle? = some handle) : (table.perform operation).2.Settled handle := by
  cases operation with
  | insert id name type =>
      rw [SymbolTable.perform] at new ⊢
      cases inserted : (table.insert id name type).1 with
      | error error => simp [inserted, Outcome.newHandle?] at new
      | ok fresh =>
          have same : fresh = handle := by simpa [inserted, Outcome.newHandle?] using new
          subst same
          obtain ⟨_, key, held, _⟩ := SymbolTable.insert_record table sound id name type fresh inserted
          exact Or.inl ⟨type, SymbolTable.typed_of_record _ fresh _ held⟩
  | _ => simp [SymbolTable.perform, Outcome.newHandle?] at new

-- What is done with a table and a builder. A reference can only be built from a handle that was given out before,
-- which is named by its number, or from none.
inductive Act where
  | operate (operation : Operation)
  | findLocal (id : ScopeId) (name : String)
  | findLexical (id : ScopeId) (name : String)
  | refer (number : Option Nat)

structure Workbench where
  table : SymbolTable := .empty
  builder : Builder
  -- All handles that insertions and lookups have given out, oldest first.
  given : List Handle := []

namespace Workbench

def act (bench : Workbench) : Act → Except Halt Workbench
  | .operate operation =>
    .ok { bench with
      table := (bench.table.perform operation).2
      given := bench.given ++ (bench.table.perform operation).1.newHandle?.toList }
  | .findLocal id name => .ok { bench with given := bench.given ++ (bench.table.lookupLocal id name).toList }
  | .findLexical id name => .ok { bench with given := bench.given ++ (bench.table.lookupLexical id name).toList }
  | .refer number =>
    match bench.builder.build bench.table (.reference (number.bind fun number => bench.given[number]?)) with
    | .error halt => .error halt
    | .ok (_, after) => .ok { bench with builder := after }

def run (bench : Workbench) : List Act → Except Halt Workbench
  | [] => .ok bench
  | act :: acts =>
    match bench.act act with
    | .error halt => .error halt
    | .ok next => next.run acts

structure Steady (bench : Workbench) : Prop where
  sound : bench.table.Sound
  settled : ∀ handle ∈ bench.given, bench.table.Settled handle

theorem answer_settled (table : SymbolTable) (given : List Handle) (answer : Option Handle)
    (settled : ∀ handle, answer = some handle → table.Settled handle) (handle : Handle)
    (member : handle ∈ given ++ answer.toList) : handle ∈ given ∨ table.Settled handle := by
  rcases List.mem_append.mp member with old | new
  · exact Or.inl old
  · exact Or.inr (settled handle (Option.mem_toList.mp new))

-- An act performs one operation on the table or none. What it gives out is settled from the start.
theorem act_effect (bench next : Workbench) (act : Act) (sound : bench.table.Sound) (done : bench.act act = .ok next) :
    (∃ operations, next.table = bench.table.after operations) ∧
    ∀ handle ∈ next.given, handle ∈ bench.given ∨ next.table.Settled handle := by
  cases act with
  | operate operation =>
      cases done
      exact ⟨⟨[operation], rfl⟩, answer_settled _ bench.given _ (new_handle_settled bench.table operation sound)⟩
  | findLocal id name =>
      cases done
      exact ⟨⟨[], rfl⟩, answer_settled _ bench.given _ (SymbolTable.local_settled bench.table sound id name)⟩
  | findLexical id name =>
      cases done
      exact ⟨⟨[], rfl⟩, answer_settled _ bench.given _ (SymbolTable.lexical_settled bench.table sound id name)⟩
  | refer number =>
      simp only [Workbench.act] at done
      split at done
      · cases done
      · cases done
        exact ⟨⟨[], rfl⟩, fun handle member => Or.inl member⟩

theorem act_steady (bench next : Workbench) (act : Act) (steady : bench.Steady) (done : bench.act act = .ok next) :
    next.Steady := by
  obtain ⟨⟨operations, table⟩, given⟩ := act_effect bench next act steady.sound done
  refine ⟨?_, fun handle member => ?_⟩
  · rw [table]
    exact SymbolTable.after_sound bench.table operations steady.sound
  · rcases given handle member with old | new
    · rw [table]
      exact SymbolTable.after_settled bench.table operations steady.sound handle (steady.settled handle old)
    · exact new

theorem run_effect (bench later : Workbench) (acts : List Act) (steady : bench.Steady) (done : bench.run acts = .ok later) :
    later.Steady ∧ ∃ operations, later.table = bench.table.after operations := by
  induction acts generalizing bench with
  | nil =>
      cases done
      exact ⟨steady, [], rfl⟩
  | cons act acts ih =>
      rw [run] at done
      split at done
      · cases done
      · rename_i next acted
        obtain ⟨last, rest, second⟩ := ih next (act_steady bench next act steady acted) done
        obtain ⟨⟨operations, first⟩, _⟩ := act_effect bench next act steady.sound acted
        refine ⟨last, operations ++ rest, ?_⟩
        rw [second, first, SymbolTable.after_append]

theorem start_steady (builder : Builder) : Steady { builder := builder } :=
  ⟨SymbolTable.empty_sound, by simp⟩

theorem cached_type_agrees (builder : Builder) (acts : List Act) (bench : Workbench)
    (ran : run { builder := builder } acts = .ok bench) (handle : Handle) (given : handle ∈ bench.given) (node : Tree)
    (after : Builder) (built : bench.builder.build bench.table (.reference (some handle)) = .ok (.ok node, after))
    (more : List Act) (later : Workbench) (continued : run { bench with builder := after } more = .ok later) :
    (∃ type, node = .reference type (some handle)) ∧
    (∀ type, later.table.typeOf? handle = some type → node.type = some type) ∧
    (node.type = none → bench.table.contains handle.scope = false ∧ later.table.typeOf? handle = none) := by
  obtain ⟨steady, _⟩ := run_effect _ bench acts (start_steady builder) ran
  obtain ⟨_, operations, table⟩ :=
    run_effect { bench with builder := after } later more ⟨steady.sound, steady.settled⟩ continued
  dsimp only at table
  have made : Tree.reference (bench.table.typeOf? handle) (some handle) = node :=
    Except.ok.inj (build_tree bench.builder after bench.table _ node built)
  subst made
  rw [table]
  refine ⟨⟨_, rfl⟩, ?_⟩
  rcases steady.settled handle given with ⟨type, typed⟩ | spent
  · have fate := SymbolTable.after_typed bench.table operations steady.sound handle type typed
    simp only [Tree.type, typed, reduceCtorEq, false_implies, and_true]
    intro other found
    rcases fate with same | spent
    · rw [← same, found]
    · rw [SymbolTable.spent_untyped _ handle spent] at found
      cases found
  · have gone := SymbolTable.spent_untyped _ handle (SymbolTable.after_spent bench.table operations steady.sound _ spent)
    rw [gone]
    exact ⟨by simp, fun _ => ⟨SymbolTable.spent_absent bench.table handle.scope spent, rfl⟩⟩

def declaring : List Act :=
  [.operate (.createScope none), .operate (.createScope (some ⟨0, 0⟩)), .operate (.insert ⟨1, 0⟩ "x" (.scalar .int)),
    .findLexical ⟨1, 0⟩ "x"]

def declared : Workbench where
  table := SymbolTable.empty.after
    [.createScope none, .createScope (some ⟨0, 0⟩), .insert ⟨1, 0⟩ "x" (.scalar .int)]
  builder := {}
  given := [⟨⟨1, 0⟩, 0⟩, ⟨⟨1, 0⟩, 0⟩]

-- The scope goes, and its slot passes to a scope with a record of another type at the same index.
def replacing : List Act :=
  [.refer (some 1), .operate (.destroy ⟨1, 0⟩), .operate (.createScope (some ⟨0, 0⟩)),
    .operate (.insert ⟨1, 1⟩ "x" (.array .char)), .findLocal ⟨1, 1⟩ "x", .refer (some 0)]

def replaced : Workbench where
  table := declared.table.after [.destroy ⟨1, 0⟩, .createScope (some ⟨0, 0⟩), .insert ⟨1, 1⟩ "x" (.array .char)]
  builder := { allocated := 3 }
  given := [⟨⟨1, 0⟩, 0⟩, ⟨⟨1, 0⟩, 0⟩, ⟨⟨1, 1⟩, 0⟩, ⟨⟨1, 1⟩, 0⟩]

-- One reference is built before the scope goes and one after that, both from the handle of the old record.
theorem cached_type_agrees_replaced :
    run { builder := {} } declaring = .ok declared ∧
    run { declared with builder := { allocated := 1 } } replacing = .ok replaced ∧
    replaced.table.typeOf? ⟨⟨1, 1⟩, 0⟩ = some (.array .char) ∧
    (∀ type, replaced.table.typeOf? ⟨⟨1, 0⟩, 0⟩ = some type → some (.scalar .int) = some type) ∧
    run { builder := {} } (declaring ++ .refer (some 0) :: replacing) = .ok replaced ∧
    replaced.table.contains ⟨1, 0⟩ = false ∧ replaced.table.typeOf? ⟨⟨1, 0⟩, 0⟩ = none := by
  have before : run { builder := {} } declaring = .ok declared := by cbv
  have between : run { declared with builder := { allocated := 1 } } replacing = .ok replaced := by cbv
  have whole : run { builder := {} } (declaring ++ .refer (some 0) :: replacing) = .ok replaced := by cbv
  have early : declared.builder.build declared.table (.reference (some ⟨⟨1, 0⟩, 0⟩)) =
      .ok (.ok (.reference (some (.scalar .int)) (some ⟨⟨1, 0⟩, 0⟩)), { allocated := 1 }) := by cbv
  have late : replaced.builder.build replaced.table (.reference (some ⟨⟨1, 0⟩, 0⟩)) =
      .ok (.ok (.reference none (some ⟨⟨1, 0⟩, 0⟩)), { allocated := 4 }) := by cbv
  have typed :=
    cached_type_agrees {} declaring declared before ⟨⟨1, 0⟩, 0⟩ (by simp [declared]) _ _ early replacing replaced between
  have untyped := cached_type_agrees {} _ replaced whole ⟨⟨1, 0⟩, 0⟩ (by simp [replaced]) _ _ late [] _ rfl
  exact ⟨before, between, by cbv, typed.2.1, whole, untyped.2.2 rfl⟩

end Workbench

end Frontend
