import Mathlib.Data.List.Perm.Subperm
import Frontend.Proofs.SymbolTable.Consistency
import Frontend.Proofs.SymbolTable.Staleness

set_option autoImplicit false

namespace Frontend.SymbolTable

-- The scopes from `id` outwards, up to and with the root. An id that is not live has no chain.
inductive Chain (table : SymbolTable) : ScopeId → List ScopeId → Prop where
  | root (id : ScopeId) (live : table.contains id = true) (top : table.parent? id = none) : Chain table id [id]
  | inner (id outer : ScopeId) (rest : List ScopeId) (link : table.parent? id = some outer)
      (above : Chain table outer rest) : Chain table id (id :: rest)

def Declares (table : SymbolTable) (id : ScopeId) (name : String) : Prop :=
  ∃ index, table.nameOf? ⟨id, index⟩ = some name

-- How a walk up the parents can stop. A plain answer does not tell the last three from each other.
inductive Walk where
  | found (handle : Handle)
  | atRoot
  | atDead
  | outOfSteps

def Walk.handle? : Walk → Option Handle
  | .found handle => some handle
  | _ => none

def Walk.ofHit : Option Handle → Walk
  | some handle => .found handle
  | none => .atRoot

def walk (table : SymbolTable) (key : NamePool.Key) : Nat → ScopeId → Walk
  | 0, _ => .outOfSteps
  | steps + 1, id =>
    match table.scope? id with
    | none => .atDead
    | some scope =>
      match scope.indexOf? key with
      | some index => .found ⟨id, index⟩
      | none =>
        match scope.parent with
        | none => .atRoot
        | some outer => table.walk key steps outer

theorem climb_walk (table : SymbolTable) (key : NamePool.Key) (steps : Nat) (id : ScopeId) :
    table.climb key steps id = (table.walk key steps id).handle? := by
  induction steps generalizing id with
  | zero => rfl
  | succ steps ih =>
      rw [climb, walk]
      cases table.scope? id with
      | none => rfl
      | some scope =>
          dsimp only
          cases scope.indexOf? key with
          | some index => rfl
          | none =>
              dsimp only
              cases scope.parent with
              | none => rfl
              | some outer => exact ih outer

section Chain

variable (table : SymbolTable)

theorem chain_live (id : ScopeId) (chain : List ScopeId) (linked : table.Chain id chain) :
    ∀ other ∈ chain, table.contains other = true := by
  induction linked with
  | root id live _ =>
      intro other member
      rw [List.mem_singleton.mp member]
      exact live
  | inner id outer rest link _ ih =>
      intro other member
      rcases List.mem_cons.mp member with same | further
      · rw [same]
        exact contains_of_parent table id outer link
      · exact ih other further

theorem chain_head (id : ScopeId) (chain : List ScopeId) (linked : table.Chain id chain) : chain.head? = some id := by
  cases linked <;> rfl

theorem chain_congr (next : SymbolTable) (sameIds : ∀ id, next.contains id = table.contains id)
    (sameParents : ∀ id, next.parent? id = table.parent? id) (id : ScopeId) (chain : List ScopeId) (linked : table.Chain id chain) :
    next.Chain id chain := by
  induction linked with
  | root id live top => exact .root id ((sameIds id).trans live) ((sameParents id).trans top)
  | inner id outer rest link _ ih => exact .inner id outer rest ((sameParents id).trans link) ih

theorem linked_chain (links : table.Linked) (id : ScopeId) (live : table.contains id = true) :
    ∃ chain, table.Chain id chain := by
  obtain ⟨rank, ranked⟩ := links.ranked
  induction height : rank id using Nat.strongRecOn generalizing id with
  | ind bound ih =>
      cases link : table.parent? id with
      | none => exact ⟨[id], .root id live link⟩
      | some outer =>
          have above := linked_parent_live table links id outer link
          obtain ⟨rest, linked⟩ := ih (rank outer) (height ▸ ranked id outer link) outer above rfl
          exact ⟨id :: rest, .inner id outer rest link linked⟩

theorem chain_encloses (id : ScopeId) (chain : List ScopeId) (linked : table.Chain id chain) (other : ScopeId) :
    table.Encloses other id ↔ other ∈ chain := by
  induction linked with
  | root id _ top =>
      rw [List.mem_singleton]
      constructor
      · intro enclosed
        rcases enclosed.cases_head with same | ⟨next, link, _⟩
        · exact same.symm
        · rw [ChildOf, top] at link
          cases link
      · rintro rfl
        exact .refl
  | inner id outer rest link _ ih =>
      rw [List.mem_cons, ← ih]
      constructor
      · intro enclosed
        rcases enclosed.cases_head with same | ⟨next, step, further⟩
        · exact Or.inl same.symm
        · rw [ChildOf, link] at step
          cases step
          exact Or.inr further
      · rintro (rfl | further)
        · exact .refl
        · exact .head link further

theorem chain_distinct (links : table.Linked) (id : ScopeId) (chain : List ScopeId) (linked : table.Chain id chain) :
    chain.Nodup := by
  induction linked with
  | root id _ _ => exact List.nodup_singleton id
  | inner id outer rest link above ih =>
      refine List.nodup_cons.mpr ⟨fun again => ?_, ih⟩
      exact linked_acyclic table links id (.head' link ((chain_encloses table outer rest above id).mpr again))

-- Each scope of a chain has a slot of its own.
theorem chain_length (links : table.Linked) (id : ScopeId) (chain : List ScopeId) (linked : table.Chain id chain) :
    chain.length ≤ table.slots.size := by
  have live := chain_live table id chain linked
  have slots : (chain.map ScopeId.slot).Nodup := by
    refine List.Nodup.map_on ?_ (chain_distinct table links id chain linked)
    intro a left b right same
    exact live_same_slot table a b (live a left) (live b right) same
  have within : chain.map ScopeId.slot ⊆ List.range table.slots.size := by
    intro index member
    obtain ⟨other, further, rfl⟩ := List.mem_map.mp member
    obtain ⟨scope, read⟩ := (contains_iff table other).mp (live other further)
    exact List.mem_range.mpr (Array.getElem?_eq_some_iff.mp ((scope_iff_slot table other scope).mp read)).1
  have bound := (slots.subperm within).length_le
  rw [List.length_map, List.length_range] at bound
  exact bound

end Chain

theorem lookup_local_of_key (table : SymbolTable) (id : ScopeId) (name : String) (key : NamePool.Key) (scope : Scope)
    (found : table.names.find? name = some key) (read : table.scope? id = some scope) :
    table.lookupLocal id name = (scope.indexOf? key).map fun index => ⟨id, index⟩ := by
  simp only [lookupLocal, found, read]

theorem lookup_local_iff (table : SymbolTable) (named : table.Named) (id : ScopeId) (name : String) (handle : Handle) :
    table.lookupLocal id name = some handle ↔ handle.scope = id ∧ table.nameOf? handle = some name := by
  constructor
  · intro hit
    unfold lookupLocal at hit
    cases found : table.names.find? name with
    | none => simp [found] at hit
    | some key =>
        cases read : table.scope? id with
        | none => simp [found, read] at hit
        | some scope =>
            simp only [found, read] at hit
            obtain ⟨index, here, rfl⟩ := Option.map_eq_some_iff.mp hit
            obtain ⟨bound, own, _⟩ := List.findIdx?_eq_some_iff_getElem.mp here
            refine ⟨rfl, ?_⟩
            simp only [nameOf?, record?, read, List.getElem?_eq_getElem bound, Option.bind_some, eq_of_beq own]
            exact NamePool.name_of_find table.names name key found
  · rintro ⟨rfl, called⟩
    obtain ⟨record, held, key⟩ := Option.bind_eq_some_iff.mp called
    cases read : table.scope? handle.scope with
    | none => simp [record?, read] at held
    | some scope =>
        simp only [record?, read] at held
        have found := (NamePool.find_iff_name table.names named.distinct name record.name).mpr key
        rw [lookup_local_of_key table handle.scope name record.name scope found read,
          index_of_own_key scope handle.index record (named.wellNamed handle.scope scope read).1 held]
        rfl

theorem lookup_local_none (table : SymbolTable) (named : table.Named) (id : ScopeId) (name : String) :
    table.lookupLocal id name = none ↔ ¬ table.Declares id name := by
  constructor
  · rintro missing ⟨index, called⟩
    rw [(lookup_local_iff table named id name ⟨id, index⟩).mpr ⟨rfl, called⟩] at missing
    cases missing
  · intro undeclared
    cases hit : table.lookupLocal id name with
    | none => rfl
    | some handle =>
        obtain ⟨rfl, called⟩ := (lookup_local_iff table named id name handle).mp hit
        exact absurd ⟨handle.index, called⟩ undeclared

-- With a step for each scope of the chain the walk stops at a hit or at the root, nowhere else.
theorem walk_chain (table : SymbolTable) (name : String) (key : NamePool.Key) (found : table.names.find? name = some key)
    (id : ScopeId) (chain : List ScopeId) (linked : table.Chain id chain) (steps : Nat) (enough : chain.length ≤ steps) :
    table.walk key steps id = .ofHit (chain.findSome? fun other => table.lookupLocal other name) := by
  induction linked generalizing steps with
  | root id live top =>
      obtain ⟨scope, read⟩ := (contains_iff table id).mp live
      obtain ⟨steps, rfl⟩ := Nat.exists_eq_add_one.mpr enough
      rw [parent_of_scope table id scope read] at top
      simp only [walk, read, top, List.findSome?_singleton, lookup_local_of_key table id name key scope found read]
      cases scope.indexOf? key <;> rfl
  | inner id outer rest link _ ih =>
      obtain ⟨scope, read, above⟩ := (parent_iff table id outer).mp link
      obtain ⟨steps, rfl⟩ := Nat.exists_eq_add_one.mpr (Nat.zero_lt_of_lt enough)
      have shorter : rest.length ≤ steps := Nat.le_of_succ_le_succ enough
      simp only [walk, read, above, List.findSome?_cons, lookup_local_of_key table id name key scope found read]
      cases scope.indexOf? key with
      | some index => rfl
      | none => exact ih steps shorter

theorem lookup_lexical_chain (table : SymbolTable) (links : table.Linked) (name : String) (id : ScopeId)
    (chain : List ScopeId) (linked : table.Chain id chain) :
    table.lookupLexical id name = chain.findSome? fun other => table.lookupLocal other name := by
  unfold lookupLexical
  cases found : table.names.find? name with
  | none =>
      symm
      rw [List.findSome?_eq_none_iff]
      intro other _
      simp only [lookupLocal, found]
  | some key =>
      dsimp only
      rw [climb_walk, walk_chain table name key found id chain linked _ (chain_length table links id chain linked)]
      cases chain.findSome? fun other => table.lookupLocal other name <;> rfl

-- What a lookup from `id` does along the chain of `id`. Any number of steps that covers the chain gives the
-- answer, and the number of slots does.
structure Resolution (table : SymbolTable) (id : ScopeId) (name : String) (chain : List ScopeId) : Prop where
  linked : table.Chain id chain
  live : ∀ other ∈ chain, table.contains other = true
  bounded : chain.length ≤ table.slots.size
  stops : ∀ key steps, table.names.find? name = some key → chain.length ≤ steps →
    table.walk key steps id = .ofHit (table.lookupLexical id name)
  firstHit : table.lookupLexical id name = chain.findSome? fun other => table.lookupLocal other name
  nearest : ∀ handle, table.lookupLexical id name = some handle → table.nameOf? handle = some name ∧
    ∃ nearer further, chain = nearer ++ handle.scope :: further ∧ ∀ inner ∈ nearer, ¬ table.Declares inner name
  missing : table.lookupLexical id name = none ↔ ∀ other ∈ chain, ¬ table.Declares other name

theorem chain_resolution (table : SymbolTable) (sound : table.Sound) (id : ScopeId) (name : String)
    (chain : List ScopeId) (linked : table.Chain id chain) : table.Resolution id name chain := by
  have hit := lookup_lexical_chain table sound.linked name id chain linked
  refine ⟨linked, chain_live table id chain linked, chain_length table sound.linked id chain linked, ?_, hit, ?_, ?_⟩
  · intro key steps found enough
    rw [hit]
    exact walk_chain table name key found id chain linked steps enough
  · intro handle answer
    rw [hit] at answer
    obtain ⟨nearer, other, further, split, here, before⟩ := List.findSome?_eq_some_iff.mp answer
    obtain ⟨rfl, called⟩ := (lookup_local_iff table sound.named other name handle).mp here
    refine ⟨called, nearer, further, split, ?_⟩
    intro inner member
    exact (lookup_local_none table sound.named inner name).mp (before inner member)
  · rw [hit, List.findSome?_eq_none_iff]
    simp only [lookup_local_none table sound.named]

theorem lookup_lexical_nearest (table : SymbolTable) (reached : table.Reached) (id : ScopeId) (name : String) :
    (table.contains id = true → ∃ chain, table.Resolution id name chain) ∧
    (table.contains id = false → table.lookupLexical id name = none) := by
  have sound := reached_sound table reached
  refine ⟨fun live => ?_, fun absent => ?_⟩
  · obtain ⟨chain, linked⟩ := linked_chain table sound.linked id live
    exact ⟨chain, chain_resolution table sound id name chain linked⟩
  · exact ((absent_inert table id absent).notFound name).2

-- From the innermost scope the name is declared twice on the way out, and the slots of the way are used a second time.
def shadowing : List Operation :=
  recycling ++ [.insert ⟨0, 0⟩ "y" (.scalar .int), .insert ⟨2, 1⟩ "x" (.scalar .char), .insert ⟨2, 1⟩ "y" (.array .int)]

theorem lookup_lexical_nearest_shadowing :
    (empty.after shadowing).Reached ∧ (empty.after shadowing).contains ⟨1, 1⟩ = true ∧
      (empty.after shadowing).lookupLexical ⟨1, 1⟩ "y" = some ⟨⟨2, 1⟩, 1⟩ ∧
      (∃ chain, (empty.after shadowing).Resolution ⟨1, 1⟩ "y" chain) ∧
      (empty.after shadowing).contains ⟨1, 0⟩ = false ∧ (empty.after shadowing).lookupLexical ⟨1, 0⟩ "y" = none := by
  have reached : (empty.after shadowing).Reached := ⟨shadowing, rfl⟩
  have live : (empty.after shadowing).contains ⟨1, 1⟩ = true := by cbv
  have found : (empty.after shadowing).lookupLexical ⟨1, 1⟩ "y" = some ⟨⟨2, 1⟩, 1⟩ := by cbv
  have stale : (empty.after shadowing).contains ⟨1, 0⟩ = false := by cbv
  exact ⟨reached, live, found, (lookup_lexical_nearest _ reached ⟨1, 1⟩ "y").1 live, stale,
    (lookup_lexical_nearest _ reached ⟨1, 0⟩ "y").2 stale⟩

end Frontend.SymbolTable
