import Mathlib.Data.List.Basic
import Mathlib.Logic.Function.Iterate
import Frontend.Proofs.Json.Skipping

set_option autoImplicit false

namespace Frontend.Json

section Readers

variable {α β : Type}

-- The reader takes this text for the value, whatever blanks are before it and whatever follows.
def Reads (reader : Reader β) (text : List Char) (value : β) : Prop :=
  ∀ gap rest, Blank gap → Ended rest → reader (gap ++ (text ++ rest)) = .ok (value, rest)

def Field.Takes (field : Field α) (text : List Char) (change : α → α) : Prop :=
  ∀ record, Reads (field.read record) text (change record)

theorem storing_takes (key : String) (reader : Reader β) (store : α → β → α) (text : List Char) (value : β)
    (reads : Reads reader text value) : (Field.storing key reader store).Takes text fun record => store record value := by
  intro record gap rest blank ended
  simp only [Field.storing, reads gap rest blank ended]

theorem nested_takes (key : String) (get : α → β) (reader : β → Reader β) (store : α → β → α) (text : List Char)
    (change : β → β) (reads : ∀ start, Reads (reader start) text (change start)) :
    (Field.nested key get reader store).Takes text fun record => store record (change (get record)) := by
  intro record gap rest blank ended
  simp only [Field.nested, reads (get record) gap rest blank ended]

end Readers

theorem skip_to (gap rest : List Char) (c : Char) (blank : Blank gap) (visible : isBlank c = false) :
    skipBlanks (gap ++ c :: rest) = c :: rest := by
  rw [skip_gap gap _ blank, skip_visible c rest visible]

theorem read_mark (mark : Char) (gap rest : List Char) (blank : Blank gap) (visible : isBlank mark = false) :
    punctuation mark (gap ++ mark :: rest) = .ok rest := by
  rw [punctuation, skip_to gap rest mark blank visible]
  exact if_pos rfl

theorem read_key (key : String) (spelled rest : List Char) (spelling : SpelledText spelled key.toList) :
    readString (spelled ++ '"' :: rest) = .ok (key, rest) := by
  simp only [readString, read_spelled spelled key.toList rest spelling, String.ofList_toList]

section Objects

variable {α : Type} (fields : List (Field α))

inductive Affects (member : String × List Char) (change : α → α) : Prop where
  | known (field : Field α) (found : fields.find? (fun field => field.key == member.1) = some field)
      (takes : field.Takes member.2 change)
  | unknown (missing : fields.find? (fun field => field.key == member.1) = none) (formed : Formed .value member.2)
      (same : ∀ record, change record = record)

theorem read_member (seen : List String) (key : String) (value before gap rest : List Char) (change : α → α) (record : α)
    (affects : Affects fields (key, value) change) (fresh : ∀ field ∈ fields, field.key = key → key ∉ seen)
    (blankBefore : Blank before) (blank : Blank gap) (ended : Ended rest) :
    readMember fields seen key record (before ++ ':' :: (gap ++ (value ++ rest))) = .ok (change record, rest) := by
  cases affects with
  | known field found takes =>
      have own : field.key = key := by simpa using List.find?_some found
      have unseen : ¬ seen.contains key = true := by
        rw [List.contains_iff_mem]
        exact fresh field (List.mem_of_find?_eq_some found) own
      rw [readMember, found]
      simp only [if_neg unseen, read_mark ':' before _ blankBefore rfl]
      exact takes record gap rest blank ended
  | unknown missing formed same =>
      rw [readMember, missing, same]
      simp only [read_mark ':' before _ blankBefore rfl, skip_value gap value rest blank formed ended]

theorem members_length (members : List (String × List Char)) (text : List Char) (written : MembersText members text) :
    members.length ≤ text.length := by
  induction written with
  | last => simp [memberText]
  | more _ _ _ _ _ _ _ _ _ _ _ _ _ _ _ ih =>
      simp only [memberText, List.length_append, List.length_cons]
      omega

-- Over the members, where `seen` has the keys of those already read.
theorem read_members (change : String × List Char → α → α) (members : List (String × List Char)) (text : List Char)
    (written : MembersText members text) (affects : ∀ member ∈ members, Affects fields member (change member)) :
    ∃ tail, text = '"' :: tail ∧ ∀ fuel seen record rest, members.length ≤ fuel →
      (∀ field ∈ fields, (seen ++ members.map Prod.fst).count field.key ≤ 1) →
      readMembers fields fuel seen record (tail ++ '\x7d' :: rest) =
        .ok (members.foldl (fun record member => change member record) record, rest) := by
  have unseen : ∀ (seen keys : List String) (key : String),
      (∀ field ∈ fields, (seen ++ key :: keys).count field.key ≤ 1) → ∀ field ∈ fields, field.key = key → key ∉ seen := by
    intro seen keys key once field member own known
    have several := once field member
    rw [own, List.count_append, List.count_cons_self] at several
    have positive := List.count_pos_iff.mpr known
    omega
  induction written with
  | last key spelled before gap value behind spelling blankBefore blankGap blank =>
      refine ⟨_, rfl, ?_⟩
      intro fuel seen record rest enough once
      obtain ⟨fuel, rfl⟩ := Nat.exists_eq_succ_of_ne_zero (Nat.ne_of_gt enough)
      have fresh := unseen seen [] key once
      have ended := ended_gap behind _ blank (ended_cons '\x7d' rest (by simp))
      simp only [List.append_assoc, List.cons_append, readMembers, read_key key spelled _ spelling]
      simp only [read_member fields seen key value before gap _ _ record (affects _ List.mem_cons_self) fresh blankBefore
        blankGap ended, skip_to behind rest '\x7d' blank rfl, if_true]
      rfl
  | more key spelled before gap value behind next others members spelling blankBefore blankGap blank blankNext _ ih =>
      obtain ⟨tail, rfl, later⟩ := ih (fun member inside => affects member (List.mem_cons_of_mem _ inside))
      rw [memberText, List.cons_append]
      refine ⟨_, rfl, ?_⟩
      intro fuel seen record rest enough once
      obtain ⟨fuel, rfl⟩ := Nat.exists_eq_succ_of_ne_zero (Nat.ne_of_gt (Nat.lt_of_lt_of_le (Nat.succ_pos _) enough))
      have fresh := unseen seen (members.map Prod.fst) key once
      have ended := ended_gap behind _ blank (ended_cons ',' (next ++ '"' :: (tail ++ '\x7d' :: rest)) (by simp))
      have onceLater : ∀ field ∈ fields, ((key :: seen) ++ members.map Prod.fst).count field.key ≤ 1 := by
        intro field member
        have several : (seen ++ key :: members.map Prod.fst).count field.key ≤ 1 := once field member
        rw [List.count_append, List.count_cons] at several ⊢
        omega
      simp only [List.append_assoc, List.cons_append, readMembers, read_key key spelled _ spelling]
      simp only [read_member fields seen key value before gap _ _ record (affects _ List.mem_cons_self) fresh blankBefore
        blankGap ended, skip_to behind _ ',' blank rfl, skip_to next _ '"' blankNext rfl, Char.reduceEq, if_true, if_false]
      exact later fuel (key :: seen) _ rest (Nat.le_of_succ_le_succ enough) onceLater

theorem read_object (change : String × List Char → α → α) (members : List (String × List Char)) (text : List Char) (record : α)
    (object : ObjectText members text) (affects : ∀ member ∈ members, Affects fields member (change member))
    (once : ∀ field ∈ fields, (members.map Prod.fst).count field.key ≤ 1) :
    Reads (readRecord fields record) text (members.foldl (fun record member => change member record) record) := by
  intro gap rest blank _
  cases object with
  | empty inner blankInner =>
      rw [readRecord, List.cons_append, skip_to gap _ '\x7b' blank rfl, recordBody, if_pos rfl, readObject, List.append_assoc,
        List.singleton_append, skip_to inner rest '\x7d' blankInner rfl]
      rfl
  | full _ inner inside blankInner written =>
      have long := members_length members inside written
      obtain ⟨tail, rfl, read⟩ := read_members fields change members inside written affects
      rw [readRecord, List.cons_append, skip_to gap _ '\x7b' blank rfl, recordBody, if_pos rfl, readObject, List.append_assoc,
        List.append_assoc, List.singleton_append, List.cons_append, skip_to inner _ '"' blankInner rfl]
      simp only [Char.reduceEq, if_true, if_false]
      refine read _ [] record rest ?_ once
      simp only [List.length_append, List.length_cons] at long ⊢
      omega

end Objects

-- Fields with what a document does to each of them.
section Settings

variable {α : Type}

def changeFor (settings : List (Field α × (α → α))) (key : String) : α → α :=
  ((settings.find? fun setting => setting.1.key == key).map Prod.snd).getD id

theorem change_own (setting : Field α × (α → α)) (settings : List (Field α × (α → α))) :
    changeFor (setting :: settings) setting.1.key = setting.2 := by
  simp [changeFor]

theorem change_other (setting : Field α × (α → α)) (settings : List (Field α × (α → α))) (key : String)
    (other : setting.1.key ≠ key) : changeFor (setting :: settings) key = changeFor settings key := by
  simp [changeFor, other]

theorem change_commutes (settings : List (Field α × (α → α))) (key : String) (change : α → α)
    (commute : ∀ setting ∈ settings, Function.Commute change setting.2) : Function.Commute change (changeFor settings key) := by
  unfold changeFor
  cases found : settings.find? fun setting => setting.1.key == key with
  | none => exact Function.Commute.id_right
  | some setting => exact commute setting (List.mem_of_find?_eq_some found)

variable (settings : List (Field α × (α → α))) (distinct : (settings.map fun setting => setting.1.key).Nodup)
  (commute : settings.Pairwise fun a b => Function.Commute a.2 b.2)
include distinct commute

theorem fold_step (counts : String → Nat) (key : String) (start : α) :
    settings.foldl (fun record setting => setting.2^[counts setting.1.key] record) (changeFor settings key start) =
      settings.foldl (fun record setting => setting.2^[counts setting.1.key + if key = setting.1.key then 1 else 0] record)
        start := by
  induction settings generalizing start with
  | nil => rfl
  | cons setting settings ih =>
      rw [List.map_cons, List.nodup_cons] at distinct
      rw [List.pairwise_cons] at commute
      rw [List.foldl_cons, List.foldl_cons]
      by_cases own : key = setting.1.key
      · rw [if_pos own, own, change_own, Function.iterate_succ_apply]
        apply List.foldl_ext
        intro record later member
        have other : setting.1.key ≠ later.1.key := fun same => distinct.1 (same ▸ List.mem_map_of_mem member)
        rw [if_neg other]
        rfl
      · have swapped := (change_commutes settings key setting.2 commute.1).iterate_left (counts setting.1.key)
        rw [if_neg own, change_other setting settings key (Ne.symm own), swapped.eq, ih distinct.2 commute.2]
        rfl

-- The order of the keys does not matter, only how often each of them comes.
theorem fold_keys (keys : List String) (start : α) :
    keys.foldl (fun record key => changeFor settings key record) start =
      settings.foldl (fun record setting => setting.2^[keys.count setting.1.key] record) start := by
  induction keys generalizing start with
  | nil =>
      rw [List.foldl_nil]
      exact (List.foldl_fixed' (fun _ => rfl) settings).symm
  | cons key keys ih =>
      rw [List.foldl_cons, ih]
      refine (fold_step settings distinct commute (fun key => keys.count key) key start).trans ?_
      simp only [List.count_cons, beq_iff_eq]

omit distinct commute

-- A document gives one value to a field and so changes the record, or none and leaves it alone.
def Field.Given (members : List (String × List Char)) (field : Field α) (change : α → α) : Prop :=
  field.key ∉ members.map Prod.fst ∧ change = id ∨
    ∃ text, members.filter (fun member => member.1 == field.key) = [(field.key, text)] ∧ field.Takes text change

variable (members : List (String × List Char)) (given : ∀ setting ∈ settings, Field.Given members setting.1 setting.2)
include given

theorem given_counted (setting : Field α × (α → α)) (member : setting ∈ settings) :
    (members.map Prod.fst).count setting.1.key ≤ 1 ∧ setting.2^[(members.map Prod.fst).count setting.1.key] = setting.2 := by
  rcases given setting member with ⟨absent, idle⟩ | ⟨text, single, _⟩
  · rw [List.count_eq_zero_of_not_mem absent, idle]
    exact ⟨Nat.zero_le 1, rfl⟩
  · have counted : (members.map Prod.fst).count setting.1.key = 1 := by
      rw [List.count, List.countP_map, List.countP_eq_length_filter]
      exact congrArg List.length single
    rw [counted]
    exact ⟨Nat.le_refl 1, rfl⟩

theorem given_affects (formed : ∀ member ∈ members, member.1 ∉ settings.map (fun setting => setting.1.key) → Formed .value member.2)
    (member : String × List Char) (inside : member ∈ members) :
    Affects (settings.map Prod.fst) member (changeFor settings member.1) := by
  have fields : (settings.map Prod.fst).find? (fun field => field.key == member.1) =
      (settings.find? fun setting => setting.1.key == member.1).map Prod.fst := List.find?_map
  cases found : settings.find? fun setting => setting.1.key == member.1 with
  | none =>
      refine .unknown (by rw [fields, found]; rfl) (formed member inside ?_) (by simp [changeFor, found])
      intro known
      obtain ⟨setting, present, same⟩ := List.mem_map.mp known
      exact List.find?_eq_none.mp found setting present (beq_iff_eq.mpr same)
  | some setting =>
      have own : setting.1.key = member.1 := by simpa using List.find?_some found
      refine .known setting.1 (by rw [fields, found]; rfl) ?_
      rcases given setting (List.mem_of_find?_eq_some found) with ⟨absent, _⟩ | ⟨text, single, takes⟩
      · exact absurd (List.mem_map_of_mem inside) (own ▸ absent)
      · have same : member ∈ members.filter fun member => member.1 == setting.1.key :=
          List.mem_filter.mpr ⟨inside, beq_iff_eq.mpr own.symm⟩
        rw [single, List.mem_singleton] at same
        simp only [changeFor, found, Option.map_some, Option.getD_some]
        rw [same]
        exact takes

include distinct commute

theorem read_settings (text : List Char) (object : ObjectText members text)
    (formed : ∀ member ∈ members, member.1 ∉ settings.map (fun setting => setting.1.key) → Formed .value member.2) (start : α) :
    Reads (readRecord (settings.map Prod.fst) start) text (settings.foldl (fun record setting => setting.2 record) start) := by
  have once : ∀ field ∈ settings.map Prod.fst, (members.map Prod.fst).count field.key ≤ 1 := by
    intro field member
    obtain ⟨setting, present, rfl⟩ := List.mem_map.mp member
    exact (given_counted settings members given setting present).1
  have folded : members.foldl (fun record member => changeFor settings member.1 record) start =
      settings.foldl (fun record setting => setting.2 record) start := by
    rw [← List.foldl_map (f := Prod.fst) (g := fun record key => changeFor settings key record),
      fold_keys settings distinct commute]
    apply List.foldl_ext
    intro record setting member
    rw [(given_counted settings members given setting member).2]
  rw [← folded]
  exact read_object _ (fun member => changeFor settings member.1) members text start object
    (given_affects settings members given formed) once

end Settings

section Telling

variable {α β : Type}

-- What an object tells about a key: nothing, or one value.
def Tells (members : List (String × List Char)) (key : String) (spells : List Char → β → Prop) : Option β → Prop
  | none => key ∉ members.map Prod.fst
  | some given => ∃ text, members.filter (fun member => member.1 == key) = [(key, text)] ∧ spells text given

theorem tells_given (members : List (String × List Char)) (field : Field α) (spells : List Char → β → Prop) (change : β → α → α)
    (takes : ∀ text value, spells text value → field.Takes text (change value)) (given : Option β)
    (told : Tells members field.key spells given) : Field.Given members field (given.elim id change) := by
  cases given with
  | none => exact Or.inl ⟨told, rfl⟩
  | some value =>
      obtain ⟨text, single, spelled⟩ := told
      exact Or.inr ⟨text, single, takes text value spelled⟩

theorem tells_storing (members : List (String × List Char)) (key : String) (reader : Reader β) (store : α → β → α)
    (spells : List Char → β → Prop) (reads : ∀ text value, spells text value → Reads reader text value) (given : Option β)
    (told : Tells members key spells given) :
    Field.Given members (.storing key reader store) (given.elim id fun value record => store record value) := by
  refine tells_given members (.storing key reader store) spells _ ?_ given told
  intro text value spelled
  exact storing_takes key reader store text value (reads text value spelled)

theorem tells_nested {γ : Type} (members : List (String × List Char)) (key : String) (get : α → β) (reader : β → Reader β)
    (store : α → β → α) (spells : List Char → γ → Prop) (fill : γ → β → β)
    (reads : ∀ text value, spells text value → ∀ start, Reads (reader start) text (fill value start)) (given : Option γ)
    (told : Tells members key spells given) :
    Field.Given members (.nested key get reader store)
      (given.elim id fun value record => store record (fill value (get record))) := by
  refine tells_given members (.nested key get reader store) spells _ ?_ given told
  intro text value spelled
  exact nested_takes key get reader store text (fill value) (reads text value spelled)

end Telling

end Frontend.Json
