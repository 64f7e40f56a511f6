import Notebook.Proofs.Keyed
import Notebook.Search.Cache

/-!
# Looking into a cache

What a look-up comes to, and what it makes of the entries.  The only new entry is that of the
query, and it may take the place of all others.
-/

namespace Notebook.Cache

variable {ε : Type}

/-! ### Good entries -/

@[simp] theorem fresh?_clear (c : Cache) (now : Float) (query : Text) :
    c.clear.fresh? now query = none := rfl

theorem fresh?_eq_some_iff {c : Cache} {now : Float} {query : Text} {ids : List Text} :
    c.fresh? now query = some ids ↔
      ∃ time, c.entries.get? query = some ⟨ids, time⟩ ∧ now - time < c.throttle := by
  unfold fresh?
  cases c.entries.get? query with
  | none => simp
  | some e =>
    obtain ⟨found, time⟩ := e
    by_cases h : now - time < c.throttle <;> simp [h]

theorem fresh?_of_not_contains {c : Cache} {now : Float} {query : Text}
    (h : c.contains query = false) : c.fresh? now query = none := by
  have hnone : c.entries.get? query = none := by simpa [contains] using h
  rw [fresh?, hnone]

/-! ### Look-ups -/

/-- What a look-up comes to that had to look for ids itself. -/
def Lookup.ofFound : Except ε (List Text) → Lookup ε
  | .ok ids => .computed ids
  | .error e => .failed e

section Lookup

variable {c : Cache} {now : Float} {query : Text} {compute : Unit → Except ε (List Text)}

theorem lookup_of_fresh {ids : List Text} (h : c.fresh? now query = some ids) :
    c.lookup now query compute = (.hit ids, c) := by
  rw [lookup, h]

theorem lookup_of_failure {e : ε} (h : c.fresh? now query = none) (hfound : compute () = .error e) :
    c.lookup now query compute = (.failed e, c) := by
  rw [lookup, h, hfound]

theorem lookup_of_success {ids : List Text} (h : c.fresh? now query = none)
    (hfound : compute () = .ok ids) :
    c.lookup now query compute = (.computed ids, c.put now query ids) := by
  rw [lookup, h, hfound]

/-- Without a good entry the answer is what was looked for. -/
theorem fst_lookup_of_stale (h : c.fresh? now query = none) :
    (c.lookup now query compute).1 = .ofFound (compute ()) := by
  cases hfound : compute () with
  | ok ids => rw [lookup_of_success h hfound]; rfl
  | error e => rw [lookup_of_failure h hfound]; rfl

variable (c now query compute) in
/-- A look-up leaves the cache as it is or puts down what it has found. -/
theorem snd_lookup_cases :
    (c.lookup now query compute).2 = c ∨
      ∃ ids, c.fresh? now query = none ∧ compute () = .ok ids ∧
        (c.lookup now query compute).2 = c.put now query ids := by
  cases hfresh : c.fresh? now query with
  | some ids => exact .inl (by rw [lookup_of_fresh hfresh])
  | none =>
    cases hfound : compute () with
    | error e => exact .inl (by rw [lookup_of_failure hfresh hfound])
    | ok ids => exact .inr ⟨ids, rfl, rfl, by rw [lookup_of_success hfresh hfound]⟩

end Lookup

/-! ### New entries -/

/-- Do all entries give way to a new one of this query? -/
def yields (c : Cache) (query : Text) : Bool := !c.contains query && c.maxEntries ≤ c.size

theorem yields_iff {c : Cache} {query : Text} :
    c.yields query = true ↔ c.contains query = false ∧ c.maxEntries ≤ c.size := by
  simp [yields]

section Put

variable {c : Cache} {query : Text} (now : Float) (ids : List Text)

theorem entries_put_of_yields (h : c.yields query = true) :
    (c.put now query ids).entries = [(query, ⟨ids, now⟩)] := by
  unfold yields at h
  simp only [put, h, if_true, Keyed.insert]

theorem entries_put_of_room (h : c.yields query = false) :
    (c.put now query ids).entries = Keyed.insert query ⟨ids, now⟩ c.entries := by
  unfold yields at h
  simp only [put, h, Bool.false_eq_true, if_false]

/-- The entry of any query after one more was put down. -/
theorem get?_entries_put (q : Text) :
    (c.put now query ids).entries.get? q = if q = query then some ⟨ids, now⟩
      else if c.yields query then none else c.entries.get? q := by
  cases hyields : c.yields query with
  | true =>
    rw [entries_put_of_yields now ids hyields, if_pos rfl]
    exact Keyed.get?_insert query q _ []
  | false =>
    rw [entries_put_of_room now ids hyields, if_neg Bool.false_ne_true, Keyed.get?_insert]

theorem size_put_le (h : (c.size : Int) ≤ max 1 c.maxEntries) :
    ((c.put now query ids).size : Int) ≤ max 1 c.maxEntries := by
  cases hyields : c.yields query with
  | true =>
    have hone : (c.put now query ids).size = 1 := by
      rw [size, entries_put_of_yields now ids hyields]
      rfl
    omega
  | false =>
    have hsize : (c.put now query ids).size =
        if query ∈ Keyed.keys c.entries then c.size else c.size + 1 := by
      rw [size, entries_put_of_room now ids hyields, Keyed.length_insert]
      rfl
    rw [hsize]
    split
    · exact h
    · next hnew =>
      -- a new query that does not empty the cache finds room below the limit
      have hcontains : c.contains query = false := by
        rw [contains, Keyed.get?_eq_none_iff.mpr hnew]
        rfl
      have hroom : ¬ c.maxEntries ≤ c.size := by
        intro hfull
        rw [yields_iff.mpr ⟨hcontains, hfull⟩] at hyields
        cases hyields
      omega

end Put

/-- After ids were kept for a query an entry is the new one or one from before. -/
theorem get?_put {c : Cache} {now : Float} {query q : Text} {ids : List Text} {e : CacheEntry}
    (h : (c.put now query ids).entries.get? q = some e) :
    q = query ∧ e = ⟨ids, now⟩ ∨ c.entries.get? q = some e := by
  rw [get?_entries_put] at h
  split at h
  · next hq =>
    cases h
    exact .inl ⟨hq, rfl⟩
  · split at h
    · cases h
    · exact .inr h

end Notebook.Cache
