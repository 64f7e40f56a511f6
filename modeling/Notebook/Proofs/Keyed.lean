import Mathlib.Data.List.Induction
import Mathlib.Data.List.Nodup
import Notebook.Keyed

/-!
# Laws of keyed records

Which pairs stand in keyed records, and what putting in, taking out and building up do to keys
and values.
-/

namespace Notebook.Keyed

variable {α β : Type}

/-! ### Pairs -/

theorem mem_of_get? {key : Text} {a : α} {r : Keyed α} (h : get? key r = some a) :
    (key, a) ∈ r := by
  induction r with
  | nil => simp at h
  | cons p r ih =>
    obtain ⟨k, b⟩ := p
    unfold get? at h
    split at h
    · next hk =>
      cases h
      simp [hk]
    · exact List.mem_cons_of_mem _ (ih h)

theorem get?_eq_none_iff {key : Text} {r : Keyed α} : get? key r = none ↔ key ∉ keys r := by
  induction r with
  | nil => simp
  | cons p r ih =>
    obtain ⟨k, b⟩ := p
    by_cases hk : k = key
    · simp [get?, keys, hk]
    · simp [get?, keys, hk, Ne.symm hk, ih]

theorem isSome_get?_iff {key : Text} {r : Keyed α} : (get? key r).isSome ↔ key ∈ keys r := by
  rw [← not_iff_not, ← get?_eq_none_iff]
  simp

theorem get?_of_mem {key : Text} {a : α} {r : Keyed α} (hr : (keys r).Nodup)
    (h : (key, a) ∈ r) : get? key r = some a := by
  induction r with
  | nil => simp at h
  | cons p r ih =>
    obtain ⟨k, b⟩ := p
    obtain ⟨hk, hr'⟩ := List.nodup_cons.mp hr
    rcases List.mem_cons.mp h with h | h
    · cases h
      simp [get?]
    · have hmem : key ∈ keys r := List.mem_map.mpr ⟨_, h, rfl⟩
      have hne : k ≠ key := fun hne => hk (hne ▸ hmem)
      simp [get?, hne, ih hr' h]

theorem mem_insert {key : Text} {a : α} {p : Text × α} {r : Keyed α}
    (h : p ∈ insert key a r) : p = (key, a) ∨ p ∈ r := by
  induction r with
  | nil => exact .inl (by simpa [insert] using h)
  | cons q r ih =>
    obtain ⟨k, b⟩ := q
    unfold insert at h
    split at h
    · rcases List.mem_cons.mp h with h | h
      · exact .inl h
      · exact .inr (List.mem_cons_of_mem _ h)
    · rcases List.mem_cons.mp h with h | h
      · exact .inr (by simp [h])
      · exact (ih h).imp id (List.mem_cons_of_mem _)

theorem mem_erase {key : Text} {p : Text × α} {r : Keyed α} :
    p ∈ erase key r ↔ p ∈ r ∧ p.1 ≠ key := by simp [erase]

/-! ### Keys -/

theorem nodup_keys_insert {r : Keyed α} (hr : (keys r).Nodup) (key : Text) (a : α) :
    (keys (insert key a r)).Nodup := by
  rw [keys_insert]
  split
  · exact hr
  · next h => exact List.nodup_append.mpr ⟨hr, by simp, by rintro x hx y hy rfl; simp_all⟩

theorem length_insert (key : Text) (a : α) (r : Keyed α) :
    (insert key a r).length = if key ∈ keys r then r.length else r.length + 1 := by
  have hkeys := congrArg List.length (keys_insert key a r)
  rw [apply_ite List.length, List.length_append] at hkeys
  simpa [keys] using hkeys

theorem nodup_keys_erase {r : Keyed α} (hr : (keys r).Nodup) (key : Text) :
    (keys (erase key r)).Nodup := by
  rw [keys_erase]
  exact hr.filter _

theorem ofPairs_concat (ps : List (Text × α)) (p : Text × α) :
    ofPairs (ps ++ [p]) = insert p.1 p.2 (ofPairs ps) := by simp [ofPairs]

theorem mem_of_mem_ofPairs {p : Text × α} {ps : List (Text × α)} (h : p ∈ ofPairs ps) :
    p ∈ ps := by
  induction ps using List.reverseRecOn with
  | nil => exact h
  | append_singleton ps q ih =>
    rw [ofPairs_concat] at h
    rcases mem_insert h with rfl | h
    · exact List.mem_append_right ps List.mem_cons_self
    · exact List.mem_append_left _ (ih h)

/-- A record under a new key goes last. -/
theorem insert_of_notMem {key : Text} {r : Keyed α} (h : key ∉ keys r) (a : α) :
    insert key a r = r ++ [(key, a)] := by
  induction r with
  | nil => rfl
  | cons p r ih =>
    obtain ⟨k, b⟩ := p
    simp only [keys, List.map_cons, List.mem_cons, not_or] at h
    simp [insert, Ne.symm h.1, ih h.2]

/-- Pairs with different keys are kept as they come. -/
theorem ofPairs_of_nodup {ps : List (Text × α)} (h : (ps.map Prod.fst).Nodup) :
    ofPairs ps = ps := by
  induction ps using List.reverseRecOn with
  | nil => rfl
  | append_singleton ps p ih =>
    rw [List.map_append, List.nodup_append] at h
    rw [ofPairs_concat, ih h.1]
    exact insert_of_notMem (fun hm => h.2.2 _ hm p.1 (by simp) rfl) _

/-! ### Records built up from pairs -/

/-- Every key stands where it came first. -/
theorem keys_ofPairs (ps : List (Text × α)) :
    keys (ofPairs ps) = (ps.map Prod.fst).eraseDups := by
  induction ps using List.reverseRecOn with
  | nil => rfl
  | append_singleton ps p ih =>
    rw [ofPairs_concat, keys_insert, ih, List.map_append, List.eraseDups_append, List.map_singleton]
    by_cases hp : p.1 ∈ ps.map Prod.fst
    · have hremove : [p.1].removeAll (ps.map Prod.fst) = [] := by simpa [List.removeAll] using hp
      rw [if_pos (List.mem_eraseDups.mpr hp), hremove, List.eraseDups_nil, List.append_nil]
    · have hremove : [p.1].removeAll (ps.map Prod.fst) = [p.1] := by
        simpa [List.removeAll] using hp
      rw [if_neg fun h => hp (List.mem_eraseDups.mp h), hremove]
      simp [List.eraseDups_cons]

/-- The last record counts. -/
theorem get?_ofPairs (ps : List (Text × α)) (key : Text) :
    get? key (ofPairs ps) = (ps.reverse.find? (·.1 = key)).map Prod.snd := by
  induction ps using List.reverseRecOn with
  | nil => rfl
  | append_singleton ps p ih =>
    rw [ofPairs_concat, get?_insert, ih, List.reverse_append, List.reverse_singleton,
      List.singleton_append]
    by_cases hp : key = p.1
    · rw [if_pos hp, List.find?_cons_of_pos (by simpa using hp.symm), Option.map_some]
    · rw [if_neg hp, List.find?_cons_of_neg (by simpa using Ne.symm hp)]

/-! ### Values -/

theorem get?_map (f : α → β) (key : Text) (r : Keyed α) :
    get? key (r.map fun p => (p.1, f p.2)) = (get? key r).map f := by
  induction r with
  | nil => rfl
  | cons p r ih =>
    simp only [List.map_cons, get?, ih]
    split <;> rfl

theorem map_insert (f : α → β) (key : Text) (a : α) (r : Keyed α) :
    (insert key a r).map (fun p => (p.1, f p.2)) =
      insert key (f a) (r.map fun p => (p.1, f p.2)) := by
  induction r with
  | nil => rfl
  | cons p r ih =>
    simp only [List.map_cons, insert]
    split
    · rfl
    · rw [List.map_cons, ih]

theorem values_eq_filterMap {r : Keyed α} (h : (keys r).Nodup) :
    values r = (keys r).filterMap (get? · r) := by
  unfold values keys at *
  rw [List.filterMap_map, ← List.filterMap_eq_map]
  refine List.filterMap_congr fun p hp => ?_
  exact (get?_of_mem h hp).symm

/-- A record that looks like the one in its place leaves the looks of all as they are. -/
theorem map_insert_of_get? {f : α → β} {key : Text} {a b : α} {r : Keyed α}
    (hb : get? key r = some b) (hf : f a = f b) :
    (insert key a r).map (fun p => (p.1, f p.2)) = r.map fun p => (p.1, f p.2) := by
  induction r with
  | nil => simp at hb
  | cons p r ih =>
    obtain ⟨k, c⟩ := p
    unfold get? at hb
    unfold insert
    split
    · next hk =>
      rw [if_pos hk] at hb
      cases hb
      simp [hf, hk]
    · next hk =>
      rw [if_neg hk] at hb
      simp [ih hb]

end Notebook.Keyed
