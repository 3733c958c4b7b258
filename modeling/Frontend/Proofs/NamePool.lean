import Mathlib.Data.List.Nodup
import Frontend.NamePool

set_option autoImplicit false

namespace Frontend.NamePool

def Distinct (pool : NamePool) : Prop := pool.names.Nodup

theorem name_unique (pool : NamePool) (distinct : pool.Distinct) (a b : Key) (name : String)
    (left : pool.name? a = some name) (right : pool.name? b = some name) : a = b := by
  obtain ⟨bound, here⟩ := List.getElem?_eq_some_iff.mp left
  obtain ⟨otherBound, there⟩ := List.getElem?_eq_some_iff.mp right
  exact distinct.getElem_inj_iff.mp (here.trans there.symm)

theorem name_of_find (pool : NamePool) (name : String) (key : Key) (found : pool.find? name = some key) :
    pool.name? key = some name := by
  obtain ⟨bound, same, _⟩ := List.idxOf?_eq_some_iff.mp found
  exact List.getElem?_eq_some_iff.mpr ⟨bound, same⟩

theorem find_iff_name (pool : NamePool) (distinct : pool.Distinct) (name : String) (key : Key) :
    pool.find? name = some key ↔ pool.name? key = some name := by
  refine ⟨name_of_find pool name key, fun named => ?_⟩
  have member : name ∈ pool.names := List.mem_of_getElem? named
  obtain ⟨other, found⟩ := Option.isSome_iff_exists.mp (List.isSome_idxOf?.mpr member)
  rw [name_unique pool distinct key other name named (name_of_find pool name other found)]
  exact found

theorem intern_extends (pool : NamePool) (name : String) :
    ∃ added, (pool.intern name).2.names = pool.names ++ added := by
  unfold intern
  cases pool.find? name with
  | some key => exact ⟨[], by simp⟩
  | none => exact ⟨[name], rfl⟩

theorem intern_keeps_name (pool : NamePool) (name old : String) (key : Key) (named : pool.name? key = some old) :
    (pool.intern name).2.name? key = some old := by
  obtain ⟨added, names⟩ := intern_extends pool name
  have bound := (List.getElem?_eq_some_iff.mp named).1
  rw [name?, names, List.getElem?_append_left bound]
  exact named

theorem intern_name (pool : NamePool) (name : String) :
    (pool.intern name).2.name? (pool.intern name).1 = some name := by
  unfold intern
  cases found : pool.find? name with
  | some key => exact name_of_find pool name key found
  | none => simp [name?]

theorem intern_distinct (pool : NamePool) (name : String) (distinct : pool.Distinct) :
    (pool.intern name).2.Distinct := by
  unfold intern
  cases found : pool.find? name with
  | some key => exact distinct
  | none =>
      have absent : name ∉ pool.names := List.idxOf?_eq_none_iff.mp found
      refine List.nodup_append.mpr ⟨distinct, List.nodup_singleton name, ?_⟩
      intro old member fresh isFresh same
      rw [List.mem_singleton.mp isFresh] at same
      exact absent (same ▸ member)

end Frontend.NamePool
