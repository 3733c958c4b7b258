import Frontend.Proofs.SymbolTable.DeclarationOrder
import Frontend.Proofs.SymbolTable.Hiding

set_option autoImplicit false

namespace Frontend.SymbolTable

-- All that can be said about a table after a declaration that has gone through.
structure Declared (table next : SymbolTable) (id : ScopeId) (name : String) (type : ValueType) (handle : Handle) : Prop where
  position : handle = ⟨id, table.size id⟩
  size : next.size id = table.size id + 1
  found : next.lookupLocal id name = some handle
  record : next.nameOf? handle = some name ∧ (next.record? handle).map (fun record => (record.type, record.value)) = some (type, .zero)
  lookups : ∀ other called, (other, called) ≠ (id, name) → next.lookupLocal other called = table.lookupLocal other called
  records : ∀ held record, table.record? held = some record → next.record? held = some record ∧
    next.nameOf? held = table.nameOf? held ∧ next.typeOf? held = table.typeOf? held
  sizes : ∀ other, other ≠ id → next.size other = table.size other
  scopes : ∀ other, next.contains other = table.contains other ∧ next.parent? other = table.parent? other ∧
    next.children other = table.children other ∧ next.isHidden other = table.isHidden other
  count : next.scopeCount = table.scopeCount

-- A declaration in `id` can be seen from `start`: the way out from there passes `id`, and meets no such name before.
def Exposed (table : SymbolTable) (start id : ScopeId) (name : String) : Prop :=
  ∃ nearer further, table.Chain start (nearer ++ id :: further) ∧ ∀ inner ∈ nearer, ¬ table.Declares inner name

section Answer

variable (table : SymbolTable) (named : table.Named) (id : ScopeId) (name : String) (type : ValueType)
include named

theorem insert_answer :
    (table.contains id = false ∧ (table.insert id name type).1 = .error (.unknownScope id)) ∨
    (table.contains id = true ∧ (table.lookupLocal id name).isSome = true ∧
      (table.insert id name type).1 = .error (.duplicateName name)) ∨
    (table.contains id = true ∧ table.lookupLocal id name = none ∧
      (table.insert id name type).1 = .ok ⟨id, table.size id⟩) := by
  have undeclared := lookup_local_none table named id name
  cases read : table.scope? id with
  | none =>
      have absent := (not_contains_iff table id).mpr read
      exact Or.inl ⟨absent, by rw [(absent_inert table id absent).noInsert]⟩
  | some scope =>
      have live := contains_of_scope table id scope read
      by_cases declared : table.Declares id name
      · refine Or.inr (Or.inl ⟨live, ?_, by rw [insert_declared table named id name type scope read declared]⟩)
        rw [Option.isSome_iff_ne_none]
        exact fun missing => undeclared.mp missing declared
      · refine Or.inr (Or.inr ⟨live, undeclared.mpr declared, ?_⟩)
        rw [insert_undeclared table named id name type scope read declared, size, read]

end Answer

section Change

variable (table : SymbolTable) (sound : table.Sound) (id : ScopeId) (name : String) (type : ValueType)
include sound

theorem insert_scopes (other : ScopeId) :
    (table.insert id name type).2.contains other = table.contains other ∧
    (table.insert id name type).2.parent? other = table.parent? other ∧
    (table.insert id name type).2.children other = table.children other := by
  rcases insert_next table sound.named id name type with unchanged | written
  · rw [unchanged]
    exact ⟨rfl, rfl, rfl⟩
  · have grown : scope? { table with names := (table.names.intern name).2 } = table.scope? := rfl
    rw [written, contains, contains, parent?, parent?, children, children, modify_scope, grown]
    by_cases same : other = id
    · rw [if_pos same, same]
      cases table.scope? id <;> exact ⟨rfl, rfl, rfl⟩
    · rw [if_neg same]
      exact ⟨rfl, rfl, rfl⟩

theorem insert_count : (table.insert id name type).2.scopeCount = table.scopeCount := by
  rcases insert_next table sound.named id name type with unchanged | written
  · rw [unchanged]
  · rw [scopeCount, scopeCount, written, (modify_frame _ id _).2.1]

variable (handle : Handle) (inserted : (table.insert id name type).1 = .ok handle)
include inserted

theorem insert_scope : ∃ scope key, table.scope? id = some scope ∧ (table.insert id name type).2.scope? id = some (declare key type scope) ∧
    handle = ⟨id, scope.size⟩ := by
  rcases insert_cases table id name type sound.named with ⟨_, failed⟩ | ⟨_, _, _, _, _, failed⟩ | ⟨scope, read, _, done⟩
  · rw [failed] at inserted
    cases inserted
  · rw [failed] at inserted
    cases inserted
  · rw [done] at inserted
    refine ⟨scope, (table.names.intern name).1, read, ?_, (Except.ok.inj inserted).symm⟩
    rw [done, modify_scope, if_pos rfl]
    exact congrArg (Option.map _) read

theorem insert_sizes (other : ScopeId) :
    (table.insert id name type).2.size other = if other = id then table.size id + 1 else table.size other := by
  by_cases same : other = id
  · obtain ⟨scope, key, before, after, _⟩ := insert_scope table sound id name type handle inserted
    rw [if_pos same, same, size, size, before, after]
    simp [declare, Scope.size]
  · rw [if_neg same, size, size, insert_elsewhere_scope table sound other id same name type]

-- The new record stands behind the others, so that no other position leads to it or has moved.
theorem insert_records (other : Handle) (different : other ≠ handle) :
    (table.insert id name type).2.record? other = table.record? other := by
  obtain ⟨scope, key, before, after, rfl⟩ := insert_scope table sound id name type handle inserted
  by_cases same : other.scope = id
  · have apart : other.index ≠ scope.records.length := by
      intro last
      apply different
      obtain ⟨place, index⟩ := other
      rw [Handle.mk.injEq]
      exact ⟨same, last⟩
    rw [record?, record?, same, before, after]
    dsimp only [declare]
    rcases Nat.lt_or_gt_of_ne apart with inside | outside
    · exact List.getElem?_append_left inside
    · rw [List.getElem?_eq_none (Nat.le_of_lt outside), List.getElem?_eq_none]
      rw [List.length_append]
      exact outside
  · rw [record?, record?, insert_elsewhere_scope table sound other.scope id same name type]

theorem insert_handle_fresh : table.record? handle = none := by
  obtain ⟨scope, key, before, _, rfl⟩ := insert_scope table sound id name type handle inserted
  rw [record?, before]
  exact List.getElem?_eq_none (Nat.le_refl _)

theorem insert_names_kept (other : Handle) (different : other ≠ handle) :
    (table.insert id name type).2.nameOf? other = table.nameOf? other := by
  rw [nameOf?, nameOf?, insert_records table sound id name type handle inserted other different]
  cases held : table.record? other with
  | none => rfl
  | some record =>
      obtain ⟨scope, read, position⟩ := (record_iff table other record).mp held
      obtain ⟨old, known⟩ := (sound.named.wellNamed other.scope scope read).2 record.name
        (List.mem_map_of_mem (List.mem_of_getElem? position))
      rw [Option.bind_some, Option.bind_some, known]
      exact perform_name table (.insert id name type) sound record.name old known

theorem insert_name : (table.insert id name type).2.nameOf? handle = some name := by
  obtain ⟨_, key, held, known⟩ := insert_record table sound id name type handle inserted
  rw [nameOf?, held]
  exact known

theorem insert_found : (table.insert id name type).2.lookupLocal id name = some handle := by
  apply (lookup_local_iff _ (insert_sound table id name type sound).named id name handle).mpr
  exact ⟨(insert_record table sound id name type handle inserted).1, insert_name table sound id name type handle inserted⟩

theorem insert_lookups (other : ScopeId) (called : String) (different : (other, called) ≠ (id, name)) :
    (table.insert id name type).2.lookupLocal other called = table.lookupLocal other called := by
  apply Option.ext
  intro found
  rw [lookup_local_iff _ (insert_sound table id name type sound).named, lookup_local_iff table sound.named]
  by_cases same : found = handle
  · have fresh : table.nameOf? handle = none := by
      rw [nameOf?, insert_handle_fresh table sound id name type handle inserted]
      rfl
    rw [same, insert_name table sound id name type handle inserted, fresh,
      (insert_record table sound id name type handle inserted).1]
    constructor
    · rintro ⟨here, own⟩
      exact absurd (Prod.ext here.symm (Option.some.inj own).symm) different
    · rintro ⟨_, known⟩
      cases known
  · rw [insert_names_kept table sound id name type handle inserted found same]

theorem insert_effect : Declared table (table.insert id name type).2 id name type handle := by
  have kept := insert_records table sound id name type handle inserted
  have named := insert_names_kept table sound id name type handle inserted
  obtain ⟨scope, _, read, _, position⟩ := insert_scope table sound id name type handle inserted
  obtain ⟨_, key, held, _⟩ := insert_record table sound id name type handle inserted
  refine ⟨?_, ?_, insert_found table sound id name type handle inserted,
    ⟨insert_name table sound id name type handle inserted, by rw [held]; rfl⟩,
    insert_lookups table sound id name type handle inserted, ?_, ?_, ?_,
    insert_count table sound id name type⟩
  · rw [position, size, read]
  · rw [insert_sizes table sound id name type handle inserted, if_pos rfl]
  · intro other record before
    have different : other ≠ handle := by
      rintro rfl
      rw [insert_handle_fresh table sound id name type other inserted] at before
      cases before
    rw [typeOf?, typeOf?, kept other different]
    exact ⟨before, named other different, rfl⟩
  · intro other different
    rw [insert_sizes table sound id name type handle inserted, if_neg different]
  · intro other
    obtain ⟨sameIds, sameParents, sameChildren⟩ := insert_scopes table sound id name type other
    exact ⟨sameIds, sameParents, sameChildren, insert_hidden table id name type sound other⟩

end Change

theorem insert_outcome_and_effect (table : SymbolTable) (reached : table.Reached) (id : ScopeId) (name : String) (type : ValueType) :
    ((table.insert id name type).1 = .error (.unknownScope id) ↔ table.contains id = false) ∧
    ((table.insert id name type).1 = .error (.duplicateName name) ↔
      table.contains id = true ∧ (table.lookupLocal id name).isSome = true) ∧
    ((∃ handle, (table.insert id name type).1 = .ok handle) ↔ table.contains id = true ∧ table.lookupLocal id name = none) ∧
    (∀ error, (table.insert id name type).1 = .error error → (table.insert id name type).2 = table) ∧
    ∀ handle, (table.insert id name type).1 = .ok handle → Declared table (table.insert id name type).2 id name type handle := by
  have sound := reached_sound table reached
  have failed := insert_failed table sound.named id name type
  have declared := insert_effect table sound id name type
  rcases insert_answer table sound.named id name type with ⟨absent, answer⟩ | ⟨live, taken, answer⟩ | ⟨live, free, answer⟩
  · refine ⟨?_, ?_, ?_, failed, declared⟩ <;> simp [answer, absent]
  · obtain ⟨handle, found⟩ := Option.isSome_iff_exists.mp taken
    refine ⟨?_, ?_, ?_, failed, declared⟩ <;> simp [answer, live, found]
  · refine ⟨?_, ?_, ?_, failed, declared⟩ <;> simp [answer, live, free]

-- The name is in the pool: a scope that is gone has declared it, and one that is live declares it. A third scope may.
theorem insert_outcome_and_effect_recycling :
    (empty.after recycling).Reached ∧
    ((empty.after recycling).contains ⟨1, 0⟩ = false ∧
      ((empty.after recycling).insert ⟨1, 0⟩ "x" (.scalar .int)).1 = .error (.unknownScope ⟨1, 0⟩)) ∧
    ((empty.after recycling).lookupLocal ⟨1, 1⟩ "x" = some ⟨⟨1, 1⟩, 0⟩ ∧
      ((empty.after recycling).insert ⟨1, 1⟩ "x" (.scalar .int)).1 = .error (.duplicateName "x") ∧
      ((empty.after recycling).insert ⟨1, 1⟩ "x" (.scalar .int)).2 = empty.after recycling) ∧
    ((empty.after recycling).lookupLocal ⟨2, 1⟩ "x" = none ∧
      Declared (empty.after recycling) ((empty.after recycling).insert ⟨2, 1⟩ "x" (.scalar .int)).2 ⟨2, 1⟩ "x" (.scalar .int)
        ⟨⟨2, 1⟩, 0⟩) := by
  have reached : (empty.after recycling).Reached := ⟨recycling, rfl⟩
  have stale : (empty.after recycling).contains ⟨1, 0⟩ = false := by cbv
  have live : (empty.after recycling).contains ⟨1, 1⟩ = true := by cbv
  have found : (empty.after recycling).lookupLocal ⟨1, 1⟩ "x" = some ⟨⟨1, 1⟩, 0⟩ := by cbv
  have missing : (empty.after recycling).lookupLocal ⟨2, 1⟩ "x" = none := by cbv
  obtain ⟨unknown, _⟩ := insert_outcome_and_effect _ reached ⟨1, 0⟩ "x" (.scalar .int)
  obtain ⟨_, duplicate, _, unchanged, _⟩ := insert_outcome_and_effect _ reached ⟨1, 1⟩ "x" (.scalar .int)
  obtain ⟨_, _, _, _, declared⟩ := insert_outcome_and_effect _ reached ⟨2, 1⟩ "x" (.scalar .int)
  have twice := duplicate.mpr ⟨live, by rw [found]; rfl⟩
  exact ⟨reached, ⟨stale, unknown.mpr stale⟩, ⟨found, twice, unchanged _ twice⟩, missing, declared _ (by cbv)⟩

theorem first_hit_congr (chain : List ScopeId) (before after : ScopeId → Option Handle)
    (same : ∀ other ∈ chain, after other = before other) : chain.findSome? after = chain.findSome? before := by
  induction chain with
  | nil => rfl
  | cons id chain ih =>
      obtain ⟨first, others⟩ := List.forall_mem_cons.mp same
      rw [List.findSome?_cons, List.findSome?_cons, first, ih others]

section Seen

variable (table : SymbolTable) (sound : table.Sound) (id : ScopeId) (name : String) (type : ValueType) (handle : Handle)
  (inserted : (table.insert id name type).1 = .ok handle) (start : ScopeId)
include sound inserted

omit inserted in
theorem insert_chain (called : String) (chain : List ScopeId) (linked : table.Chain start chain) :
    (table.insert id name type).2.lookupLexical start called =
      chain.findSome? fun other => (table.insert id name type).2.lookupLocal other called := by
  have scopes := insert_scopes table sound id name type
  apply lookup_lexical_chain _ (insert_sound table id name type sound).linked
  exact chain_congr table _ (fun other => (scopes other).1) (fun other => (scopes other).2.1) start chain linked

-- Up to the scope of the declaration all answers are as before.
theorem insert_nearer (nearer further : List ScopeId) (linked : table.Chain start (nearer ++ id :: further)) (called : String) :
    (nearer.findSome? fun other => (table.insert id name type).2.lookupLocal other called) =
      nearer.findSome? fun other => table.lookupLocal other called := by
  apply first_hit_congr
  intro other member
  apply insert_lookups table sound id name type handle inserted
  intro same
  have distinct := chain_distinct table sound.linked start _ linked
  exact (List.nodup_append.mp distinct).2.2 other member id List.mem_cons_self (congrArg Prod.fst same)

theorem insert_seen (exposed : table.Exposed start id name) :
    (table.insert id name type).2.lookupLexical start name = some handle := by
  obtain ⟨nearer, further, linked, clear⟩ := exposed
  have nothing : (nearer.findSome? fun other => table.lookupLocal other name) = none := by
    rw [List.findSome?_eq_none_iff]
    intro inner member
    exact (lookup_local_none table sound.named inner name).mpr (clear inner member)
  rw [insert_chain table sound id name type start name _ linked, List.findSome?_append,
    insert_nearer table sound id name type handle inserted start nearer further linked, nothing, List.findSome?_cons,
    insert_found table sound id name type handle inserted]
  rfl

theorem insert_unseen (called : String) (hidden : ¬ (called = name ∧ table.Exposed start id name)) :
    (table.insert id name type).2.lookupLexical start called = table.lookupLexical start called := by
  cases live : table.contains start with
  | false =>
      have gone := (insert_scopes table sound id name type start).1.trans live
      rw [((absent_inert table start live).notFound called).2, ((absent_inert _ start gone).notFound called).2]
  | true =>
      obtain ⟨chain, linked⟩ := linked_chain table sound.linked start live
      rw [insert_chain table sound id name type start called chain linked,
        lookup_lexical_chain table sound.linked called start chain linked]
      by_cases passed : called = name ∧ id ∈ chain
      · obtain ⟨rfl, member⟩ := passed
        obtain ⟨nearer, further, rfl⟩ := List.append_of_mem member
        -- A nearer scope declares the name, or the declaration could be seen. The walk ends there, before and after.
        have shadow : (nearer.findSome? fun other => table.lookupLocal other called).isSome = true := by
          rw [Option.isSome_iff_ne_none]
          intro nothing
          apply hidden
          refine ⟨rfl, nearer, further, linked, fun inner inside => ?_⟩
          exact (lookup_local_none table sound.named inner called).mp (List.findSome?_eq_none_iff.mp nothing inner inside)
        rw [List.findSome?_append, List.findSome?_append,
          insert_nearer table sound id called type handle inserted start nearer further linked, Option.or_of_isSome shadow,
          Option.or_of_isSome shadow]
      · apply first_hit_congr
        intro other member
        apply insert_lookups table sound id name type handle inserted
        intro same
        obtain ⟨rfl, rfl⟩ := Prod.mk.inj same
        exact passed ⟨rfl, member⟩

end Seen

theorem insert_redirects_exposed (table : SymbolTable) (reached : table.Reached) (id : ScopeId) (name : String) (type : ValueType)
    (handle : Handle) (inserted : (table.insert id name type).1 = .ok handle) (start : ScopeId) (called : String) :
    (called = name ∧ table.Exposed start id name → (table.insert id name type).2.lookupLexical start called = some handle) ∧
    (¬ (called = name ∧ table.Exposed start id name) →
      (table.insert id name type).2.lookupLexical start called = table.lookupLexical start called) := by
  have sound := reached_sound table reached
  refine ⟨?_, insert_unseen table sound id name type handle inserted start called⟩
  rintro ⟨rfl, exposed⟩
  exact insert_seen table sound id called type handle inserted start exposed

-- A late declaration in the root. The scope in the middle sees it, the innermost one has declared the name itself.
theorem insert_redirects_exposed_root :
    (empty.after recycling).Reached ∧
    ((empty.after recycling).insert ⟨0, 0⟩ "x" (.scalar .int)).1 = .ok ⟨⟨0, 0⟩, 0⟩ ∧
    ((empty.after recycling).Exposed ⟨2, 1⟩ ⟨0, 0⟩ "x" ∧ (empty.after recycling).lookupLexical ⟨2, 1⟩ "x" = none ∧
      ((empty.after recycling).insert ⟨0, 0⟩ "x" (.scalar .int)).2.lookupLexical ⟨2, 1⟩ "x" = some ⟨⟨0, 0⟩, 0⟩) ∧
    (¬ (empty.after recycling).Exposed ⟨1, 1⟩ ⟨0, 0⟩ "x" ∧
      (empty.after recycling).lookupLexical ⟨1, 1⟩ "x" = some ⟨⟨1, 1⟩, 0⟩ ∧
      ((empty.after recycling).insert ⟨0, 0⟩ "x" (.scalar .int)).2.lookupLexical ⟨1, 1⟩ "x" = some ⟨⟨1, 1⟩, 0⟩) := by
  have reached : (empty.after recycling).Reached := ⟨recycling, rfl⟩
  have inserted : ((empty.after recycling).insert ⟨0, 0⟩ "x" (.scalar .int)).1 = .ok ⟨⟨0, 0⟩, 0⟩ := by cbv
  have named := (reached_sound _ reached).named
  have exposed : (empty.after recycling).Exposed ⟨2, 1⟩ ⟨0, 0⟩ "x" := by
    refine ⟨[⟨2, 1⟩], [], .inner _ ⟨0, 0⟩ _ (by cbv) (.root _ (by cbv) (by cbv)), ?_⟩
    intro inner member
    rw [List.mem_singleton.mp member]
    exact (lookup_local_none _ named ⟨2, 1⟩ "x").mp (by cbv)
  have covered : ¬ (empty.after recycling).Exposed ⟨1, 1⟩ ⟨0, 0⟩ "x" := by
    rintro ⟨nearer, further, linked, clear⟩
    have first := chain_head _ _ _ linked
    cases nearer with
    | nil => cases first
    | cons inner nearer =>
        cases first
        exact clear _ List.mem_cons_self ⟨0, by cbv⟩
  have before : (empty.after recycling).lookupLexical ⟨1, 1⟩ "x" = some ⟨⟨1, 1⟩, 0⟩ := by cbv
  have seen := (insert_redirects_exposed _ reached ⟨0, 0⟩ "x" (.scalar .int) _ inserted ⟨2, 1⟩ "x").1 ⟨rfl, exposed⟩
  have unseen := (insert_redirects_exposed _ reached ⟨0, 0⟩ "x" (.scalar .int) _ inserted ⟨1, 1⟩ "x").2 fun seen => covered seen.2
  exact ⟨reached, inserted, ⟨exposed, by cbv, seen⟩, covered, before, unseen.trans before⟩

end Frontend.SymbolTable
