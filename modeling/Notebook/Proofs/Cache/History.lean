import Notebook.Proofs.Cache.Uses

/-!
# What a cache remembers

An entry is what the last successful search for its query has found, and it is there as long as
nothing has cleared the cache since, be it a caller or a query that is new to a full cache.
-/

namespace Notebook.Cache

variable {ε : Type}

/-! ### Events -/

/-- What happens to entries. -/
inductive Event
  /-- Ids were looked for and found. -/
  | computed (query : Text) (time : Float) (ids : List Text)
  | cleared
  /-- All entries have given way to a new one. -/
  | evicted
  deriving DecidableEq

/-- After this nothing holds that was known of a query before. -/
def Event.ends (query : Text) : Event → Bool
  | computed q _ _ => q = query
  | cleared | evicted => true

/-- The last that was found for a query, at some time, and neither cleared nor evicted since. -/
def Latest (events : List Event) (query : Text) (time : Float) (ids : List Text) : Prop :=
  ∃ before after, events = before ++ .computed query time ids :: after ∧
    ∀ e ∈ after, e.ends query = false

section Latest

variable {events : List Event} {query : Text} {time : Float} {ids : List Text}

theorem not_latest_nil : ¬ Latest [] query time ids := by
  rintro ⟨before, after, h, -⟩
  cases before <;> cases h

theorem latest_concat {e : Event} :
    Latest (events ++ [e]) query time ids ↔
      e = .computed query time ids ∨ e.ends query = false ∧ Latest events query time ids := by
  constructor
  · rintro ⟨before, after, h, hafter⟩
    cases after using List.reverseRecOn with
    | nil =>
      obtain ⟨-, he⟩ := List.append_inj' h rfl
      exact .inl (List.singleton_inj.mp he)
    | append_singleton after e' =>
      rw [← List.cons_append, ← List.append_assoc] at h
      obtain ⟨hevents, he⟩ := List.append_inj' h rfl
      cases List.singleton_inj.mp he
      refine .inr ⟨hafter e (by simp), before, after, hevents, fun x hx => hafter x ?_⟩
      exact List.mem_append_left _ hx
  · rintro (rfl | ⟨he, before, after, rfl, hafter⟩)
    · exact ⟨events, [], rfl, by simp⟩
    · refine ⟨before, after ++ [e], by simp, fun x hx => ?_⟩
      rcases List.mem_append.mp hx with hx | hx
      · exact hafter x hx
      · rw [List.mem_singleton.mp hx]
        exact he

end Latest

/-! ### Entries by events -/

/-- What an event makes of the entry of a query. -/
def Event.entry (query : Text) (before : Option CacheEntry) : Event → Option CacheEntry
  | computed q time ids => if q = query then some ⟨ids, time⟩ else before
  | cleared | evicted => none

/-- The entry of a query, told by events alone. -/
theorem foldl_entry_eq_some_iff {events : List Event} {query : Text} {time : Float}
    {ids : List Text} :
    events.foldl (Event.entry query) none = some ⟨ids, time⟩ ↔ Latest events query time ids := by
  induction events using List.reverseRecOn with
  | nil => simp [not_latest_nil]
  | append_singleton events e ih =>
    rw [List.foldl_append, List.foldl_cons, List.foldl_nil, latest_concat, ← ih]
    cases e with
    | computed q t found =>
      by_cases hq : q = query
      · simp [Event.entry, Event.ends, hq, and_comm]
      · simp [Event.entry, Event.ends, hq]
    | cleared | evicted => simp [Event.entry, Event.ends]

namespace Timed

/-- The events of one use.  All entries have given way before the new one is put down. -/
def events (s : Timed) : Use ε → List Event
  | .lookup query found =>
    match (s.lookup query found).1 with
    | .computed ids =>
      (if s.cache.yields query then [.evicted] else []) ++ [.computed query s.now ids]
    | _ => []
  | .clear => [.cleared]
  | _ => []

def history (s : Timed) : List (Use ε) → List Event
  | [] => []
  | u :: uses => s.events u ++ (s.step u).history uses

theorem history_concat (s : Timed) (uses : List (Use ε)) (u : Use ε) :
    s.history (uses ++ [u]) = s.history uses ++ (s.run uses).events u := by
  induction uses generalizing s with
  | nil => simp [history, run]
  | cons v uses ih =>
    rw [List.cons_append, history, ih, history, List.append_assoc]
    rfl

theorem get?_entries_step (s : Timed) (u : Use ε) (query : Text) :
    (s.step u).cache.entries.get? query =
      (s.events u).foldl (Event.entry query) (s.cache.entries.get? query) := by
  cases u with
  | lookup q found =>
    simp only [step, events, lookup]
    cases hfresh : s.cache.fresh? s.now q with
    | some ids =>
      rw [lookup_of_fresh hfresh]
      rfl
    | none =>
      cases found with
      | error e =>
        have hlookup : s.cache.lookup s.now q (fun _ => .error e) = (.failed e, s.cache) :=
          lookup_of_failure hfresh rfl
        rw [hlookup]
        rfl
      | ok ids =>
        have hlookup : s.cache.lookup s.now q (fun _ => (.ok ids : Except ε _)) =
            (.computed ids, s.cache.put s.now q ids) := lookup_of_success hfresh rfl
        rw [hlookup]
        simp only [get?_entries_put]
        by_cases hq : query = q
        · cases s.cache.yields q <;> simp [Event.entry, hq]
        · cases s.cache.yields q <;> simp [Event.entry, hq, Ne.symm hq]
  | clear | contains | advance => rfl

theorem get?_entries_run (s : Timed) (uses : List (Use ε)) (query : Text) :
    (s.run uses).cache.entries.get? query =
      (s.history uses).foldl (Event.entry query) (s.cache.entries.get? query) := by
  induction uses using List.reverseRecOn with
  | nil => rfl
  | append_singleton uses u ih =>
    rw [run_concat, get?_entries_step, ih, history_concat, List.foldl_append]

/-- A good entry is the latest that was found, and not too old. -/
theorem fresh?_run_eq_some_iff (throttle : Float) (maxEntries : Int) (start : Float)
    (uses : List (Use ε)) (query : Text) (ids : List Text) :
    let s := (new throttle maxEntries start).run uses
    s.cache.fresh? s.now query = some ids ↔
      ∃ time, Latest ((new throttle maxEntries start).history uses) query time ids ∧
        s.now - time < throttle := by
  intro s
  have hthrottle : s.cache.throttle = throttle := (settings_run _ uses).1
  rw [fresh?_eq_some_iff, hthrottle]
  simp only [← foldl_entry_eq_some_iff]
  rw [get?_entries_run]
  rfl

end Timed

end Notebook.Cache
