import Frontend.Proofs.SymbolTable.Lookup
import Frontend.Proofs.SymbolTable.Parallel
import Frontend.Proofs.SymbolTable.Queries

set_option autoImplicit false

namespace Frontend

-- What a record tells: the name behind its key, the type and the value.
def Record.told (pool : NamePool) (record : Record) : Option String × ValueType × Double :=
  (pool.name? record.name, record.type, record.value)

namespace SymbolTable

-- Two scopes with the same place and records that tell the same. How their marks may differ is left open.
structure TellsSame (marks : Bool → Bool → Prop) (pool other : NamePool) (a b : Scope) : Prop where
  parent : b.parent = a.parent
  children : b.children = a.children
  records : b.records.map (Record.told other) = a.records.map (Record.told pool)
  marked : marks a.hidden b.hidden

def Resembles (marks : Bool → Bool → Prop) (table other : SymbolTable) : Prop :=
  Parallel (TellsSame marks table.names other.names) table other

theorem tells_same_likeness (marks : Bool → Bool → Prop) (reflexive : ∀ mark, marks mark mark) (pool other : NamePool) :
    Likeness (TellsSame marks pool other) where
  parent := fun _ _ same => same.parent
  children := fun _ _ same => same.children
  fresh := fun _ => ⟨rfl, rfl, rfl, reflexive false⟩
  relinked := fun _ _ _ same => ⟨same.parent, rfl, same.records, same.marked⟩

theorem tells_same_size (marks : Bool → Bool → Prop) (pool other : NamePool) (a b : Scope)
    (same : TellsSame marks pool other a b) : b.size = a.size := by
  simpa [Scope.size] using congrArg List.length same.records

theorem resembles_self (marks : Bool → Bool → Prop) (reflexive : ∀ mark, marks mark mark) (table : SymbolTable) :
    Resembles marks table table :=
  parallel_self _ table fun scope => ⟨rfl, rfl, rfl, reflexive scope.hidden⟩

theorem name_told (table : SymbolTable) (handle : Handle) :
    table.nameOf? handle = ((table.record? handle).map (Record.told table.names)).bind fun told => told.1 := by
  unfold nameOf?
  cases table.record? handle <;> rfl

theorem type_told (table : SymbolTable) (handle : Handle) :
    table.typeOf? handle = ((table.record? handle).map (Record.told table.names)).map fun told => told.2.1 := by
  unfold typeOf?
  cases table.record? handle <;> rfl

theorem keyless_told (table : SymbolTable) (handle : Handle) :
    (table.answer (.record handle)).keyless =
      .record (((table.record? handle).map (Record.told table.names)).map fun told => ⟨0, told.2.1, told.2.2⟩) := by
  simp only [answer, Answer.keyless]
  cases table.record? handle <;> rfl

section Answers

variable (marks : Bool → Bool → Prop) (table other : SymbolTable) (resembles : Resembles marks table other)
include resembles

theorem resembles_record (handle : Handle) :
    (other.record? handle).map (Record.told other.names) = (table.record? handle).map (Record.told table.names) := by
  unfold record?
  rcases parallel_cases _ table other resembles handle.scope with ⟨left, right⟩ | ⟨a, b, left, right, same⟩
  · rw [left, right]
    rfl
  · rw [left, right]
    dsimp only
    rw [← List.getElem?_map, ← List.getElem?_map, same.records]

theorem resembles_name (handle : Handle) : other.nameOf? handle = table.nameOf? handle := by
  rw [name_told, name_told, resembles_record marks table other resembles handle]

theorem resembles_type (handle : Handle) : other.typeOf? handle = table.typeOf? handle := by
  rw [type_told, type_told, resembles_record marks table other resembles handle]

theorem resembles_size (id : ScopeId) : other.size id = table.size id := by
  unfold size
  rcases parallel_cases _ table other resembles id with ⟨left, right⟩ | ⟨a, b, left, right, same⟩
  · rw [left, right]
  · rw [left, right]
    exact tells_same_size marks _ _ a b same

theorem resembles_declares (id : ScopeId) (name : String) : other.Declares id name ↔ table.Declares id name := by
  unfold Declares
  simp only [resembles_name marks table other resembles]

theorem resembles_parent (id : ScopeId) : other.parent? id = table.parent? id := by
  unfold parent?
  rcases parallel_cases _ table other resembles id with ⟨left, right⟩ | ⟨a, b, left, right, same⟩
  · rw [left, right]
  · rw [left, right]
    exact same.parent

theorem resembles_children (id : ScopeId) : other.children id = table.children id := by
  unfold children
  rcases parallel_cases _ table other resembles id with ⟨left, right⟩ | ⟨a, b, left, right, same⟩
  · rw [left, right]
  · rw [left, right]
    exact same.children

theorem resembles_chain (id : ScopeId) (chain : List ScopeId) (linked : table.Chain id chain) : other.Chain id chain :=
  chain_congr table other (parallel_contains _ table other resembles) (resembles_parent marks table other resembles) id chain linked

variable (sound : table.Sound) (otherSound : other.Sound)
include sound otherSound

theorem resembles_lookup_local (id : ScopeId) (name : String) : other.lookupLocal id name = table.lookupLocal id name := by
  apply Option.ext
  intro handle
  rw [lookup_local_iff other otherSound.named, lookup_local_iff table sound.named,
    resembles_name marks table other resembles]

theorem resembles_lookup_lexical (id : ScopeId) (name : String) :
    other.lookupLexical id name = table.lookupLexical id name := by
  cases live : table.contains id with
  | false =>
      have gone : other.contains id = false := (parallel_contains _ table other resembles id).trans live
      rw [((absent_inert table id live).notFound name).2, ((absent_inert other id gone).notFound name).2]
  | true =>
      obtain ⟨chain, linked⟩ := linked_chain table sound.linked id live
      have otherLinked := resembles_chain marks table other resembles id chain linked
      rw [lookup_lexical_chain table sound.linked name id chain linked,
        lookup_lexical_chain other otherSound.linked name id chain otherLinked]
      simp only [resembles_lookup_local marks table other resembles sound otherSound]

end Answers

section Insert

variable (table : SymbolTable) (named : table.Named) (id : ScopeId) (name : String) (type : ValueType) (scope : Scope)
  (read : table.scope? id = some scope)
include named read

theorem declares_iff_key : table.Declares id name ↔ ∃ key, table.names.find? name = some key ∧ key ∈ keys scope := by
  constructor
  · rintro ⟨index, called⟩
    obtain ⟨record, held, known⟩ := Option.bind_eq_some_iff.mp called
    simp only [record?, read] at held
    exact ⟨record.name, (NamePool.find_iff_name table.names named.distinct name record.name).mpr known,
      List.mem_map_of_mem (List.mem_of_getElem? held)⟩
  · rintro ⟨key, found, member⟩
    obtain ⟨record, there, rfl⟩ := List.mem_map.mp member
    obtain ⟨index, position⟩ := List.mem_iff_getElem?.mp there
    refine ⟨index, ?_⟩
    simp only [nameOf?, record?, read, position, Option.bind_some]
    exact NamePool.name_of_find table.names name record.name found

theorem insert_declared (declared : table.Declares id name) :
    table.insert id name type = (.error (.duplicateName name), table) := by
  rcases insert_cases table id name type named with ⟨absent, _⟩ | ⟨_, _, _, _, _, failed⟩ | ⟨held, there, fresh, _⟩
  · rw [read] at absent
    cases absent
  · exact failed
  · obtain ⟨key, found, member⟩ := (declares_iff_key table named id name scope read).mp declared
    have same : held = scope := Option.some.inj (there.symm.trans read)
    rw [NamePool.intern, found, same] at fresh
    exact absurd member fresh

theorem insert_undeclared (undeclared : ¬ table.Declares id name) :
    table.insert id name type = (.ok ⟨id, scope.size⟩,
      { table with names := (table.names.intern name).2 }.modifyScope id (declare (table.names.intern name).1 type)) := by
  rcases insert_cases table id name type named with ⟨absent, _⟩ | ⟨held, key, there, found, member, _⟩ | ⟨held, there, _, inserted⟩
  · rw [read] at absent
    cases absent
  · have same : held = scope := Option.some.inj (there.symm.trans read)
    rw [same] at member
    exact absurd ((declares_iff_key table named id name scope read).mpr ⟨key, found, member⟩) undeclared
  · have same : held = scope := Option.some.inj (there.symm.trans read)
    rw [← same]
    exact inserted

end Insert

-- A pool that grows keeps what a record with a known name tells.
theorem told_kept (pool : NamePool) (name : String) (scope : Scope) (named : WellNamed pool (keys scope)) (record : Record)
    (member : record ∈ scope.records) : record.told (pool.intern name).2 = record.told pool := by
  obtain ⟨old, known⟩ := named.2 record.name (List.mem_map_of_mem member)
  rw [Record.told, Record.told, known, NamePool.intern_keeps_name pool name old record.name known]

theorem told_grown (pool : NamePool) (name : String) (scope : Scope) (named : WellNamed pool (keys scope)) :
    scope.records.map (Record.told (pool.intern name).2) = scope.records.map (Record.told pool) :=
  List.map_congr_left (told_kept pool name scope named)

theorem told_declared (pool : NamePool) (name : String) (key : NamePool.Key) (type : ValueType) (scope : Scope)
    (known : pool.name? key = some name) :
    (declare key type scope).records.map (Record.told pool) =
      scope.records.map (Record.told pool) ++ [(some name, type, Double.zero)] := by
  simp [declare, Record.told, known]

theorem tells_same_declared (marks : Bool → Bool → Prop) (pool other : NamePool) (name : String) (key twin : NamePool.Key)
    (type : ValueType) (known : pool.name? key = some name) (twinKnown : other.name? twin = some name) (a b : Scope)
    (same : TellsSame marks pool other a b) : TellsSame marks pool other (declare key type a) (declare twin type b) := by
  refine ⟨same.parent, same.children, ?_, same.marked⟩
  rw [told_declared pool name key type a known, told_declared other name twin type b twinKnown, same.records]

theorem told_stored (pool : NamePool) (records : List Record) (index : Nat) (value : Double) :
    (records.modify index fun record => { record with value := value }).map (Record.told pool) =
      (records.map (Record.told pool)).modify index fun told => (told.1, told.2.1, value) := by
  apply List.ext_getElem?
  intro position
  simp only [List.getElem?_map, List.getElem?_modify]
  cases records[position]? with
  | none => rfl
  | some record => by_cases same : index = position <;> simp [same, Record.told]

section Perform

variable (marks : Bool → Bool → Prop) (table other : SymbolTable) (resembles : Resembles marks table other)
  (sound : table.Sound) (otherSound : other.Sound)
include resembles sound otherSound

theorem resembles_grown (name : String) :
    Parallel (TellsSame marks (table.names.intern name).2 (other.names.intern name).2)
      { table with names := (table.names.intern name).2 } { other with names := (other.names.intern name).2 } := by
  have grown := parallel_mono _ (TellsSame marks (table.names.intern name).2 (other.names.intern name).2) table other
    resembles ?_
  · exact ⟨grown.slots, grown.free, grown.live⟩
  · intro index generation a b slot twin same
    refine ⟨same.parent, same.children, ?_, same.marked⟩
    rw [told_grown table.names name a (sound.named.slots index generation a slot),
      told_grown other.names name b (otherSound.named.slots index generation b twin)]
    exact same.records

theorem resembles_insert (id : ScopeId) (name : String) (type : ValueType) :
    (other.insert id name type).1 = (table.insert id name type).1 ∧
      Resembles marks (table.insert id name type).2 (other.insert id name type).2 := by
  rcases parallel_cases _ table other resembles id with ⟨left, right⟩ | ⟨a, b, left, right, same⟩
  · have absent := (not_contains_iff table id).mpr left
    have gone := (not_contains_iff other id).mpr right
    rw [(absent_inert table id absent).noInsert, (absent_inert other id gone).noInsert]
    exact ⟨rfl, resembles⟩
  · have declared := resembles_declares marks table other resembles id name
    by_cases taken : table.Declares id name
    · rw [insert_declared table sound.named id name type a left taken,
        insert_declared other otherSound.named id name type b right (declared.mpr taken)]
      exact ⟨rfl, resembles⟩
    · have free : ¬ other.Declares id name := fun twice => taken (declared.mp twice)
      rw [insert_undeclared table sound.named id name type a left taken,
        insert_undeclared other otherSound.named id name type b right free, tells_same_size marks _ _ a b same]
      refine ⟨rfl, ?_⟩
      rw [Resembles, (modify_frame _ id _).2.2, (modify_frame _ id _).2.2]
      refine parallel_modify _ _ _ (resembles_grown marks table other resembles sound otherSound name) id _ _ ?_
      intro before twin _ _ close
      exact tells_same_declared marks _ _ name _ _ type (NamePool.intern_name table.names name)
        (NamePool.intern_name other.names name) before twin close

omit sound otherSound in
theorem resembles_modify (id : ScopeId) (change : Scope → Scope)
    (kept : ∀ a b, TellsSame marks table.names other.names a b → TellsSame marks table.names other.names (change a) (change b)) :
    Resembles marks (table.modifyScope id change) (other.modifyScope id change) := by
  rw [Resembles, (modify_frame table id change).2.2, (modify_frame other id change).2.2]
  exact parallel_modify _ table other resembles id change change fun a b _ _ same => kept a b same

omit sound otherSound in
theorem resembles_store (handle : Handle) (value : Double) :
    (other.setValue handle value).1 = (table.setValue handle value).1 ∧
      Resembles marks (table.setValue handle value).2 (other.setValue handle value).2 := by
  refine ⟨?_, resembles_modify marks table other resembles handle.scope _ fun a b same => ?_⟩
  · have told := congrArg Option.isSome (resembles_record marks table other resembles handle)
    rwa [Option.isSome_map, Option.isSome_map] at told
  · refine ⟨same.parent, same.children, ?_, same.marked⟩
    rw [told_stored, told_stored, same.records]

theorem resembles_perform (reflexive : ∀ mark, marks mark mark) (operation : Operation) :
    (other.perform operation).1 = (table.perform operation).1 ∧
      Resembles marks (table.perform operation).2 (other.perform operation).2 := by
  have likeness := tells_same_likeness marks reflexive table.names other.names
  cases operation with
  | createScope parent =>
      obtain ⟨sameResult, parallel⟩ := parallel_create _ likeness table other resembles parent
      rw [perform, perform, sameResult]
      refine ⟨rfl, ?_⟩
      rw [Resembles, create_names, create_names]
      exact parallel
  | hide id =>
      refine ⟨congrArg Outcome.hidden (parallel_contains _ table other resembles id), ?_⟩
      exact resembles_modify marks table other resembles id _ fun a b same =>
        ⟨same.parent, same.children, same.records, reflexive true⟩
  | destroy id =>
      obtain ⟨sameResult, parallel⟩ := parallel_destroy _ likeness table other resembles id
      rw [perform, perform, sameResult]
      refine ⟨rfl, ?_⟩
      rw [Resembles, destroy_names, destroy_names]
      exact parallel
  | insert id name type =>
      obtain ⟨sameResult, next⟩ := resembles_insert marks table other resembles sound otherSound id name type
      rw [perform, perform, sameResult]
      exact ⟨rfl, next⟩
  | setValue handle value =>
      obtain ⟨sameResult, next⟩ := resembles_store marks table other resembles handle value
      rw [perform, perform, sameResult]
      exact ⟨rfl, next⟩

-- The one question left out is whether a scope is hidden. The marks alone decide on it.
theorem resembles_answer (query : Query) (unmarked : ∀ id, query ≠ .hidden id) :
    (other.answer query).keyless = (table.answer query).keyless := by
  cases query with
  | contains id => rw [answer, answer, parallel_contains _ table other resembles]
  | parent id => rw [answer, answer, resembles_parent marks table other resembles]
  | children id => rw [answer, answer, resembles_children marks table other resembles]
  | hidden id => exact absurd rfl (unmarked id)
  | size id => rw [answer, answer, resembles_size marks table other resembles]
  | isEmpty id => rw [answer, answer, isEmpty, isEmpty, resembles_size marks table other resembles]
  | scopeCount => rw [answer, answer, scopeCount, scopeCount, resembles.live]
  | lookupLocal id name =>
      rw [answer, answer, resembles_lookup_local marks table other resembles sound otherSound]
  | lookupLexical id name =>
      rw [answer, answer, resembles_lookup_lexical marks table other resembles sound otherSound]
  | record handle => rw [keyless_told, keyless_told, resembles_record marks table other resembles]
  | name handle => rw [answer, answer, resembles_name marks table other resembles]
  | type handle => rw [answer, answer, resembles_type marks table other resembles]

end Perform

end SymbolTable

end Frontend
