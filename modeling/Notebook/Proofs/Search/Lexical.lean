import Mathlib.Data.List.Nodup
import Notebook.Proofs.Cache.Lookup
import Notebook.Search.Searcher

/-!
# Searches word by word

Ids that were found are turned back into items.  Over items with different ids nothing is lost on
the way: a search that looks for itself finds the items that the descriptor accepts, in order.
-/

namespace Notebook

/-- Only the overdue check reads the clock. -/
theorem Descriptor.accepts_congr_now {d : Descriptor} (h : d.requireOverdue = false)
    (t t' : Moment) (n : Note) : d.accepts t n = d.accepts t' n := by
  simp [accepts, h]

namespace Searcher

variable {α : Type} (note : α → Note)

/-! ### Items by their ids -/

theorem lastWithId?_eq_some {items : List α} {id : Text} {a : α}
    (h : lastWithId? note items id = some a) : a ∈ items ∧ (note a).id = id := by
  unfold lastWithId? at h
  have hid := List.find?_some h
  have hmem := List.mem_of_find?_eq_some h
  exact ⟨List.mem_reverse.mp hmem, by simpa using hid⟩

theorem lastWithId?_eq_none_iff {items : List α} {id : Text} :
    lastWithId? note items id = none ↔ id ∉ items.map fun a => (note a).id := by
  simp [lastWithId?]

/-- An item that no other has the id of is found by its id. -/
theorem lastWithId?_of_unique {items : List α} {a : α} (ha : a ∈ items)
    (h : ∀ b ∈ items, (note b).id = (note a).id → b = a) :
    lastWithId? note items (note a).id = some a := by
  cases hlast : lastWithId? note items (note a).id with
  | none => exact absurd (List.mem_map_of_mem ha) ((lastWithId?_eq_none_iff note).mp hlast)
  | some b =>
    obtain ⟨hb, hid⟩ := lastWithId?_eq_some note hlast
    rw [h b hb hid]

theorem lastWithId?_of_mem {items : List α} (hnd : (items.map fun a => (note a).id).Nodup)
    {a : α} (ha : a ∈ items) : lastWithId? note items (note a).id = some a :=
  lastWithId?_of_unique note ha fun _ hb hid => List.inj_on_of_nodup_map hnd hb ha hid

/-- Ids that no item has find nothing. -/
theorem filterMap_lastWithId?_filter (items : List α) (ids : List Text) :
    (ids.filter (· ∈ items.map fun a => (note a).id)).filterMap (lastWithId? note items) =
      ids.filterMap (lastWithId? note items) := by
  induction ids with
  | nil => rfl
  | cons i ids ih =>
    by_cases hi : i ∈ items.map fun a => (note a).id
    · rw [List.filter_cons_of_pos (by simpa using hi), List.filterMap_cons, List.filterMap_cons, ih]
    · have hnone := (lastWithId?_eq_none_iff note).mpr hi
      rw [List.filter_cons_of_neg (by simpa using hi), List.filterMap_cons, hnone, ih]

theorem filterMap_lastWithId?_map {items : List α}
    (hnd : (items.map fun a => (note a).id).Nodup) {part : List α} (hp : ∀ a ∈ part, a ∈ items) :
    (part.map fun a => (note a).id).filterMap (lastWithId? note items) = part := by
  induction part with
  | nil => rfl
  | cons a part ih =>
    obtain ⟨ha, hp⟩ := List.forall_mem_cons.mp hp
    rw [List.map_cons, List.filterMap_cons, lastWithId?_of_mem note hnd ha, ih hp]

/-! ### What is found -/

theorem eq_of_route_words {semanticMode : Bool} {query : Text} {d : Descriptor}
    (h : route semanticMode query = .words d) : d = (Query.parse query).descriptor := by
  unfold route at h
  split at h
  · cases h
  · simp only at h
    split at h
    · cases h
    · split at h
      · cases h
        rfl
      · cases h

theorem mem_acceptedIds {d : Descriptor} {now : Moment} {items : List α} {id : Text} :
    id ∈ acceptedIds note d now items ↔
      ∃ a ∈ items, d.accepts now (note a) = true ∧ (note a).id = id := by
  simp [acceptedIds, and_assoc]

theorem lexicalSearch_hit {s : Searcher} {clock : Clock} {query : Text} {ids : List Text}
    (h : s.cache.fresh? clock.seconds query = some ids) (d : Descriptor) (items : List α) :
    lexicalSearch note s clock query d items =
      (ids.filterMap (lastWithId? note items), s) := by
  simp [lexicalSearch, lexicalIds, h]

theorem lexicalSearch_miss {s : Searcher} {clock : Clock} {query : Text}
    (h : s.cache.fresh? clock.seconds query = none) (d : Descriptor) (items : List α) :
    lexicalSearch note s clock query d items =
      ((acceptedIds note d clock.wall items).filterMap (lastWithId? note items),
        { s with
          cache := s.cache.put clock.seconds query (acceptedIds note d clock.wall items)
          matched := s.matched + items.length }) := by
  simp [lexicalSearch, lexicalIds, h]

/-- The ids of accepted items lead back to these items. -/
theorem filterMap_acceptedIds {items : List α} (hnd : (items.map fun a => (note a).id).Nodup)
    (d : Descriptor) (now : Moment) :
    (acceptedIds note d now items).filterMap (lastWithId? note items) =
      items.filter fun a => d.accepts now (note a) :=
  filterMap_lastWithId?_map note hnd fun _ ha => (List.mem_filter.mp ha).1

end Searcher

end Notebook
