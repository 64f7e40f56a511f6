import Notebook.Proofs.Cache.History

/-!
# Lists that are handed out

A shelf is the query cache, here `Cache`, with its lists as objects that can be altered by those who
hold them.  The cache keeps a copy of what was found and hands out a copy of what it keeps, so no
list that it keeps is ever held by anyone else: what callers do to their lists makes no difference
to any answer.
-/

namespace Notebook.Cache

variable {ε : Type}

/-- A cache among lists that can be altered.  Every list has a number. -/
structure Shelf where
  throttle : Float
  maxEntries : Int
  now : Float
  /-- What stands in the lists, by their numbers. -/
  lists : List (List Text)
  /-- The lists that someone outside has got hold of. -/
  held : List Nat
  /-- The list that is kept for a query, and the time when it was found. -/
  entries : Keyed (Nat × Float)
  /-- How often something was looked for. -/
  calls : Nat

/-- What goes on around a cache: it is used, or a list that someone holds is altered. -/
inductive Deed (ε : Type)
  | use (u : Use ε)
  | alter (place : Nat) (ids : List Text)

def Deed.use? : Deed ε → Option (Use ε)
  | use u => some u
  | alter _ _ => none

namespace Shelf

def new (throttle : Float) (maxEntries : Int) (start : Float) : Shelf :=
  ⟨throttle, maxEntries, start, [], [], [], 0⟩

def content (s : Shelf) (i : Nat) : List Text := s.lists.getD i []

/-- A new list that nobody outside holds. -/
def make (s : Shelf) (ids : List Text) : Shelf := { s with lists := s.lists ++ [ids] }

/-- A new list in someone's hands. -/
def handOut (s : Shelf) (ids : List Text) : Shelf :=
  { s.make ids with held := s.held ++ [s.lists.length] }

/-- The kept list of a query, if it is still good. -/
def good? (s : Shelf) (query : Text) : Option Nat :=
  match s.entries.get? query with
  | some (i, time) => if s.now - time < s.throttle then some i else none
  | none => none

/-- Keep the list of the given number for a query. -/
def put (s : Shelf) (query : Text) (i : Nat) : Shelf :=
  let kept := if !(s.entries.get? query).isSome && s.maxEntries ≤ s.entries.length then []
    else s.entries
  { s with entries := Keyed.insert query (i, s.now) kept }

/-- One more search. -/
def call (s : Shelf) : Shelf := { s with calls := s.calls + 1 }

/-- Keep a copy of a list for a query. -/
def keep (s : Shelf) (query : Text) (ids : List Text) : Shelf :=
  (s.make ids).put query s.lists.length

/-- What stands in the list that the caller gets.  The list that is found stays in the hands of
the one who found it. -/
def lookup (s : Shelf) (query : Text) (found : Except ε (List Text)) : Lookup ε × Shelf :=
  match s.good? query with
  | some i => (.hit (s.content i), s.handOut (s.content i))
  | none =>
    match found with
    | .error e => (.failed e, s.call)
    | .ok ids => (.computed ids, ((s.call.handOut ids).keep query ids).handOut ids)

/-- New contents for the list that was handed out at a place. -/
def alter (s : Shelf) (place : Nat) (ids : List Text) : Shelf :=
  match s.held[place]? with
  | some i => { s with lists := s.lists.set i ids }
  | none => s

def step (s : Shelf) : Deed ε → Shelf
  | .use (.lookup query found) => (s.lookup query found).2
  | .use .clear => { s with entries := [] }
  | .use (.contains _) => s
  | .use (.advance seconds) => { s with now := s.now + seconds }
  | .alter place ids => s.alter place ids

def run (s : Shelf) (deeds : List (Deed ε)) : Shelf := deeds.foldl step s

theorem run_concat (s : Shelf) (deeds : List (Deed ε)) (d : Deed ε) :
    s.run (deeds ++ [d]) = (s.run deeds).step d := by
  simp [run]

/-! ### What is kept is not held -/

structure Apart (s : Shelf) : Prop where
  kept : ∀ p ∈ s.entries, p.2.1 < s.lists.length
  held : ∀ i ∈ s.held, i < s.lists.length
  apart : ∀ p ∈ s.entries, p.2.1 ∉ s.held

namespace Apart

variable {s : Shelf}

theorem new (throttle : Float) (maxEntries : Int) (start : Float) :
    (new throttle maxEntries start).Apart := ⟨nofun, nofun, nofun⟩

theorem handOut (h : s.Apart) (ids : List Text) : (s.handOut ids).Apart := by
  have hlength : (s.handOut ids).lists.length = s.lists.length + 1 := by simp [Shelf.handOut, make]
  refine ⟨fun p hp => ?_, fun i hi => ?_, fun p hp hheld => ?_⟩
  · have := h.kept p hp
    omega
  · rcases List.mem_append.mp hi with hi | hi
    · have := h.held i hi
      omega
    · have := List.mem_singleton.mp hi
      omega
  · rcases List.mem_append.mp hheld with hi | hi
    · exact h.apart p hp hi
    · have hlt := h.kept p hp
      rw [List.mem_singleton.mp hi] at hlt
      omega

theorem call (h : s.Apart) : s.call.Apart := ⟨h.kept, h.held, h.apart⟩

theorem keep (h : s.Apart) (query : Text) (ids : List Text) : (s.keep query ids).Apart := by
  have hlength : (s.make ids).lists.length = s.lists.length + 1 := by simp [make]
  have hentries : ∀ p ∈ (s.keep query ids).entries,
      p.2.1 = s.lists.length ∨ p ∈ s.entries := by
    intro p hp
    rcases Keyed.mem_insert hp with rfl | hp
    · exact .inl rfl
    · split at hp
      · cases hp
      · exact .inr hp
  refine ⟨fun p hp => ?_, fun i hi => ?_, fun p hp hheld => ?_⟩
  · show p.2.1 < (s.make ids).lists.length
    rcases hentries p hp with hnew | hold
    · omega
    · have := h.kept p hold
      omega
  · show i < (s.make ids).lists.length
    have := h.held i hi
    omega
  · rcases hentries p hp with hnew | hold
    · have := h.held _ hheld
      omega
    · exact h.apart p hold hheld

theorem lookup (h : s.Apart) (query : Text) (found : Except ε (List Text)) :
    (s.lookup query found).2.Apart := by
  unfold Shelf.lookup
  cases s.good? query with
  | some i => exact h.handOut _
  | none =>
    cases found with
    | error e => exact h.call
    | ok ids => exact ((h.call.handOut ids).keep query ids).handOut ids

theorem alter (h : s.Apart) (place : Nat) (ids : List Text) : (s.alter place ids).Apart := by
  unfold Shelf.alter
  cases s.held[place]? with
  | none => exact h
  | some i =>
    have hlength : (s.lists.set i ids).length = s.lists.length := List.length_set
    exact ⟨fun p hp => hlength.symm ▸ h.kept p hp, fun j hj => hlength.symm ▸ h.held j hj, h.apart⟩

theorem step (h : s.Apart) (d : Deed ε) : (s.step d).Apart := by
  cases d with
  | use u =>
    cases u with
    | lookup query found => exact h.lookup query found
    | clear => exact ⟨nofun, h.held, nofun⟩
    | contains => exact h
    | advance => exact ⟨h.kept, h.held, h.apart⟩
  | alter place ids => exact h.alter place ids

end Apart

/-! ### The cache on the shelf -/

/-- What is kept in a list since some time. -/
def entry (s : Shelf) (p : Nat × Float) : CacheEntry := ⟨s.content p.1, p.2⟩

/-- The cache, whichever lists its ids stand in. -/
def view (s : Shelf) : Timed where
  cache :=
    { throttle := s.throttle
      maxEntries := s.maxEntries
      entries := s.entries.map fun p => (p.1, s.entry p.2) }
  now := s.now

/-- Only the contents of kept lists are in view. -/
theorem view_congr {s s' : Shelf} (hthrottle : s'.throttle = s.throttle)
    (hmax : s'.maxEntries = s.maxEntries) (hnow : s'.now = s.now)
    (hentries : s'.entries = s.entries)
    (hcontent : ∀ p ∈ s.entries, s'.content p.2.1 = s.content p.2.1) : s'.view = s.view := by
  unfold view
  rw [hthrottle, hmax, hnow, hentries]
  congr 2
  refine List.map_congr_left fun p hp => ?_
  rw [entry, entry, hcontent p hp]

section View

variable {s : Shelf}

theorem content_make {i : Nat} (hi : i < s.lists.length) (ids : List Text) :
    (s.make ids).content i = s.content i := by
  simp [content, make, List.getElem?_append_left hi]

theorem content_make_length (ids : List Text) : (s.make ids).content s.lists.length = ids := by
  simp [content, make]

theorem view_make (h : s.Apart) (ids : List Text) : (s.make ids).view = s.view :=
  view_congr rfl rfl rfl rfl fun p hp => content_make (h.kept p hp) ids

theorem view_handOut (h : s.Apart) (ids : List Text) : (s.handOut ids).view = s.view :=
  view_congr rfl rfl rfl rfl fun p hp => content_make (h.kept p hp) ids

theorem get?_view (s : Shelf) (query : Text) :
    s.view.cache.entries.get? query = (s.entries.get? query).map s.entry :=
  Keyed.get?_map s.entry query s.entries

theorem view_put (s : Shelf) (query : Text) (i : Nat) :
    (s.put query i).view =
      { s.view with cache := s.view.cache.put s.now query (s.content i) } := by
  have hcontains : s.view.cache.contains query = (s.entries.get? query).isSome := by
    rw [Cache.contains, get?_view, Option.isSome_map]
  have hsize : s.view.cache.size = s.entries.length := List.length_map _
  unfold Cache.put Shelf.put
  rw [hcontains, hsize]
  show view { s with entries := Keyed.insert query (i, s.now) (if _ then _ else _) } = ⟨⟨_, _,
    Keyed.insert query ⟨s.content i, s.now⟩ (if _ then _ else _)⟩, _⟩
  unfold view
  congr 2
  refine (Keyed.map_insert s.entry query (i, s.now) _).trans ?_
  rw [apply_ite (List.map _)]
  rfl

theorem view_keep (h : s.Apart) (query : Text) (ids : List Text) :
    (s.keep query ids).view = { s.view with cache := s.view.cache.put s.now query ids } := by
  rw [keep, view_put, view_make h, content_make_length]
  rfl

theorem fresh?_view (s : Shelf) (query : Text) :
    s.view.cache.fresh? s.now query = (s.good? query).map s.content := by
  unfold fresh? good?
  rw [get?_view]
  cases s.entries.get? query with
  | none => rfl
  | some p =>
    show (if s.now - p.2 < s.throttle then some (s.content p.1) else none) =
      (if s.now - p.2 < s.throttle then some p.1 else none).map s.content
    split <;> rfl

/-- Seen without its lists, a look-up is one in the cache, and it looks for ids just if that
does. -/
theorem lookup_view (h : s.Apart) (query : Text) (found : Except ε (List Text)) :
    (s.lookup query found).1 = (s.view.lookup query found).1 ∧
      (s.lookup query found).2.view = { s.view with cache := (s.view.lookup query found).2 } ∧
      (s.lookup query found).2.calls =
        if (s.view.cache.fresh? s.now query).isSome then s.calls else s.calls + 1 := by
  have hfresh := fresh?_view s query
  unfold Timed.lookup
  cases hgood : s.good? query with
  | some i =>
    have hlookup : s.lookup query found = (.hit (s.content i), s.handOut (s.content i)) := by
      unfold lookup
      rw [hgood]
    rw [hgood, Option.map_some] at hfresh
    have hcache : s.view.cache.lookup s.view.now query (fun _ => found) =
        (.hit (s.content i), s.view.cache) := lookup_of_fresh hfresh
    rw [hlookup, hfresh, hcache]
    exact ⟨rfl, view_handOut h (s.content i), rfl⟩
  | none =>
    rw [hgood, Option.map_none] at hfresh
    rw [hfresh]
    cases found with
    | error e =>
      have hlookup : s.lookup query (.error e) = (.failed e, s.call) := by
        unfold lookup
        rw [hgood]
      have hcache : s.view.cache.lookup s.view.now query (fun _ => .error e) =
          (.failed e, s.view.cache) := lookup_of_failure hfresh rfl
      rw [hlookup, hcache]
      exact ⟨rfl, rfl, rfl⟩
    | ok ids =>
      have hlookup : s.lookup query (.ok ids : Except ε _) =
          (.computed ids, ((s.call.handOut ids).keep query ids).handOut ids) := by
        unfold lookup
        rw [hgood]
      have hcache : s.view.cache.lookup s.view.now query (fun _ => (.ok ids : Except ε _)) =
          (.computed ids, s.view.cache.put s.now query ids) := lookup_of_success hfresh rfl
      have hout := h.call.handOut ids
      rw [hlookup, hcache]
      refine ⟨rfl, ?_, rfl⟩
      rw [view_handOut (hout.keep query ids), view_keep hout, view_handOut h.call]
      rfl

/-- Whoever alters a list that he holds alters nothing that is in view. -/
theorem view_alter (h : s.Apart) (place : Nat) (ids : List Text) :
    (s.alter place ids).view = s.view := by
  unfold alter
  cases hplace : s.held[place]? with
  | none => rfl
  | some i =>
    refine view_congr rfl rfl rfl rfl fun p hp => ?_
    have hne : i ≠ p.2.1 := fun hi => h.apart p hp (hi ▸ List.mem_of_getElem? hplace)
    simp [content, List.getElem?_set_ne hne]

theorem view_use (h : s.Apart) (u : Use ε) : (s.step (.use u)).view = s.view.step u := by
  cases u with
  | lookup query found => exact (lookup_view h query found).2.1
  | clear | contains | advance => rfl

end View

/-- In view is what the uses have made of the cache. -/
theorem view_run {s : Shelf} (h : s.Apart) (deeds : List (Deed ε)) :
    (s.run deeds).Apart ∧ (s.run deeds).view = s.view.run (deeds.filterMap Deed.use?) := by
  induction deeds using List.reverseRecOn with
  | nil => exact ⟨h, rfl⟩
  | append_singleton deeds d ih =>
    obtain ⟨hapart, hview⟩ := ih
    rw [run_concat]
    refine ⟨hapart.step d, ?_⟩
    cases d with
    | use u =>
      rw [view_use hapart, hview, List.filterMap_append, ← Timed.run_concat]
      rfl
    | alter place ids =>
      show ((s.run deeds).alter place ids).view = _
      rw [view_alter hapart, hview, List.filterMap_append]
      exact congrArg _ (List.append_nil _).symm

/-- A look-up looks for nothing just if the latest that was found for its query is not too old and
nothing was cleared or evicted since; then this is the answer, as it was found.  Otherwise it looks
once and answers with what it finds.  Lists that callers have altered on the way make no
difference. -/
theorem lookup_eq_latest_or_found (throttle : Float) (maxEntries : Int) (start : Float)
    (deeds : List (Deed ε)) (query : Text) (found : Except ε (List Text)) :
    let uses := deeds.filterMap Deed.use?
    let past := (Timed.new throttle maxEntries start).history uses
    let shelf := (new throttle maxEntries start).run deeds
    let cache := (Timed.new throttle maxEntries start).run uses
    let known := fun ids => ∃ time, Latest past query time ids ∧ cache.now - time < throttle
    let answer := (shelf.lookup query found).1
    let calls := (shelf.lookup query found).2.calls
    answer = (cache.lookup query found).1 ∧ (calls = shelf.calls ↔ ∃ ids, known ids) ∧
      (∀ ids, known ids → answer = .hit ids) ∧
      ((¬ ∃ ids, known ids) → calls = shelf.calls + 1 ∧ answer = .ofFound found) := by
  intro uses past shelf cache known answer calls
  obtain ⟨hapart, hview⟩ : shelf.Apart ∧ shelf.view = cache :=
    view_run (Apart.new throttle maxEntries start) deeds
  obtain ⟨hanswer, -, hcalls⟩ := lookup_view hapart query found
  -- the answer and the calls are told by the cache in view, which knows nothing of the lists
  have hnow : shelf.now = cache.now := congrArg Timed.now hview
  rw [hview] at hanswer hcalls
  rw [hnow] at hcalls
  have hknown : ∀ ids, cache.cache.fresh? cache.now query = some ids ↔ known ids := fun ids =>
    Timed.fresh?_run_eq_some_iff throttle maxEntries start uses query ids
  refine ⟨hanswer, ?_, fun ids hids => ?_, fun hnone => ?_⟩
  · rw [show calls = _ from hcalls]
    simp only [← hknown]
    cases cache.cache.fresh? cache.now query <;> simp
  · have hfresh := (hknown ids).mpr hids
    exact hanswer.trans (congrArg Prod.fst (lookup_of_fresh hfresh))
  · have hstale : cache.cache.fresh? cache.now query = none :=
      Option.eq_none_iff_forall_ne_some.mpr fun ids hids => hnone ⟨ids, (hknown ids).mp hids⟩
    rw [hstale] at hcalls
    exact ⟨hcalls, hanswer.trans (fst_lookup_of_stale hstale)⟩

end Shelf

end Notebook.Cache
