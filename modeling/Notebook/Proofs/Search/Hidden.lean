import Mathlib.Data.List.Induction
import Notebook.Proofs.Embedding.Scores
import Notebook.Note.Record
import Notebook.Proofs.Search.Lexical

/-!
# Hidden notes in answers

Archived notes and notes of the system are not searchable.  An answer by meaning or by likeness has
none of them, and no more has the answer to a blank query.  A search word by word finds ids, and
the notes that these ids lead to are not looked at again: this is the one way on which a hidden
note comes into an answer.

A desk is the search orchestrator, here a `Searcher`, over a whole course of calls, with the notes
that it is handed and with what is done to them in between.
-/

namespace Notebook

/-! ### Answers without hidden notes -/

namespace Searcher

variable {α : Type} {note : α → Note}

theorem isSearchable_of_semanticSearch {s : Searcher} {text : Text} {items : List α}
    {ps : List (α × Float)} (h : semanticSearch note s text items = .ok ps)
    {p : α × Float} (hp : p ∈ ps) : (note p.1).isSearchable = true := by
  unfold semanticSearch at h
  split at h
  · cases h
  · cases h
    cases hp
  · obtain ⟨xs, -, rfl⟩ := except_map_eq_ok_iff.mp h
    exact (List.mem_filter.mp hp).2

theorem isSearchable_of_similarNotes {s : Searcher} {reference : Note} {threshold : Option Float}
    {items : List α} {ps : List (α × Float)}
    (h : similarNotes note s reference threshold items = .ok ps) {p : α × Float} (hp : p ∈ ps) :
    (note p.1).isSearchable = true := by
  unfold similarNotes at h
  split at h
  · cases h
    cases hp
  · have hmem : p.1 ∈ others note reference items :=
      Similarity.mem_of_mem_rank (except_mapError_eq_ok_iff.mp h) hp
    have := (List.mem_filter.mp hmem).2
    simp only [Bool.and_eq_true] at this
    exact this.2

theorem isSearchable_of_findSimilar {s : Searcher} {reference : Note} {items as : List α}
    (h : findSimilar note s reference items = .ok as) {a : α} (ha : a ∈ as) :
    (note a).isSearchable = true := by
  obtain ⟨ps, hs, rfl⟩ := except_map_eq_ok_iff.mp h
  obtain ⟨p, hp, rfl⟩ := List.mem_map.mp ha
  exact isSearchable_of_similarNotes hs (mem_of_mem_headUpTo hp)

/-- Only a search word by word may find what is not searchable. -/
theorem route_of_search_hidden {s : Searcher} {clock : Clock} {query : Text} {items as : List α}
    (h : (search note s clock query items).1 = .ok as) {a : α} (ha : a ∈ as)
    (hidden : (note a).isSearchable = false) :
    route s.semanticMode query = .words (Query.parse query).descriptor := by
  unfold search at h
  cases hr : route s.semanticMode query with
  | everything =>
    simp only [hr, Except.ok.injEq] at h
    subst h
    simp [hidden] at ha
  | nothing =>
    simp only [hr, Except.ok.injEq] at h
    subst h
    cases ha
  | meaning text =>
    simp only [hr] at h
    obtain ⟨ps, hs, rfl⟩ := except_map_eq_ok_iff.mp h
    obtain ⟨p, hp, rfl⟩ := List.mem_map.mp ha
    rw [isSearchable_of_semanticSearch hs hp] at hidden
    cases hidden
  | words d => rw [eq_of_route_words hr]

/-- An item is found word by word if its id is found and no later item has the same id. -/
theorem mem_lexicalSearch {s : Searcher} {clock : Clock} {query : Text} {d : Descriptor}
    {items : List α} {a : α} :
    a ∈ (lexicalSearch note s clock query d items).1 ↔
      lastWithId? note items (note a).id = some a ∧
        (note a).id ∈ (lexicalIds note s clock query d items).1 := by
  show a ∈ (lexicalIds note s clock query d items).1.filterMap (lastWithId? note items) ↔ _
  rw [List.mem_filterMap]
  constructor
  · rintro ⟨i, hi, hlast⟩
    obtain ⟨-, rfl⟩ := lastWithId?_eq_some note hlast
    exact ⟨hlast, hi⟩
  · rintro ⟨hlast, hi⟩
    exact ⟨_, hi, hlast⟩

end Searcher

/-! ### A desk where notes are searched -/

/-- Notes, each at its place, and a searcher to which some of them are handed time and again. -/
structure Desk where
  pool : List Note
  searcher : Searcher
  clock : Clock

namespace Desk

/-- One thing done at the desk. -/
inductive Step
  | search (query : Text) (places : List Nat)
  | semanticSearch (text : Text) (places : List Nat)
  | findSimilar (reference : Note) (places : List Nat)
  | similarNotes (reference : Note) (threshold : Option Float) (places : List Nat)
  | clearCache
  | setSemanticMode (on : Bool)
  | advance (seconds : Float)
  /-- A new value for a field of the note at a place. -/
  | assign (place : Nat) (field : Text) (value : Json)
  /-- The engine has come to the end of its loading. -/
  | loaded

/-- A desk whose searcher has kept nothing yet. -/
def new (pool : List Note) (searcher : Searcher) (clock : Clock) : Desk :=
  ⟨pool, searcher.clearCache, clock⟩

/-- The notes at some places, each with its place. -/
def handed (d : Desk) (places : List Nat) : List (Nat × Note) :=
  places.filterMap fun i => d.pool[i]?.map (i, ·)

/-- A refused value changes nothing. -/
def step (d : Desk) : Step → Desk
  | .search query places =>
    { d with searcher := (d.searcher.search Prod.snd d.clock query (d.handed places)).2 }
  | .clearCache => { d with searcher := d.searcher.clearCache }
  | .setSemanticMode on => { d with searcher := { d.searcher with semanticMode := on } }
  | .advance seconds => { d with clock := d.clock.advance seconds }
  | .assign place field value =>
    { d with pool := d.pool.modify place fun n => ((n.assign field value).toOption).getD n }
  | .loaded => { d with searcher := { d.searcher with engine := d.searcher.engine.finish } }
  | _ => d

def run (d : Desk) (steps : List Step) : Desk := steps.foldl step d

/-- What a search comes to: the notes it finds, or an error. -/
def result (d : Desk) : Step → Except SearchError (List (Nat × Note))
  | .search query places => (d.searcher.search Prod.snd d.clock query (d.handed places)).1
  | .semanticSearch text places =>
    (d.searcher.semanticSearch Prod.snd text (d.handed places)).map (·.map Prod.fst)
  | .findSimilar reference places =>
    d.searcher.findSimilar Prod.snd reference (d.handed places)
  | .similarNotes reference threshold places =>
    (d.searcher.similarNotes Prod.snd reference threshold (d.handed places)).map (·.map Prod.fst)
  | _ => .ok []

/-- Does a step show a hidden note? -/
def Shows (d : Desk) (e : Step) : Prop :=
  ∃ found p, d.result e = .ok found ∧ p ∈ found ∧ p.2.isSearchable = false

/-- The handed notes that a query would find now, if nothing were kept. -/
def matching (d : Desk) (query : Text) (places : List Nat) : List (Nat × Note) :=
  (d.handed places).filter fun p => (Query.parse query).descriptor.accepts d.clock.wall p.2

/-- The entry that is kept for a query. -/
def kept (d : Desk) (query : Text) : Option CacheEntry := d.searcher.cache.entries.get? query

variable {d : Desk} {query : Text} {places : List Nat}

theorem run_concat (d : Desk) (steps : List Step) (e : Step) :
    d.run (steps ++ [e]) = (d.run steps).step e := by
  simp [run]

/-! ### Where an entry comes from -/

/-- The entry that a search puts down. -/
def newEntry (d : Desk) (query : Text) (places : List Nat) : CacheEntry :=
  ⟨(d.matching query places).map (·.2.id), d.clock.seconds⟩

/-- After a step an entry was there before, or the step is a search that has put it down. -/
theorem kept_step {e : Step} {c : CacheEntry} (h : (d.step e).kept query = some c) :
    (∃ places, e = .search query places ∧ c = d.newEntry query places) ∨
      d.kept query = some c := by
  cases e with
  | search q places =>
    unfold kept at h
    simp only [step, Searcher.search] at h
    split at h
    · exact .inr h
    · exact .inr h
    · exact .inr h
    · next desc hd =>
      obtain rfl := Searcher.eq_of_route_words hd
      cases hf : d.searcher.cache.fresh? d.clock.seconds q with
      | some ids =>
        rw [Searcher.lexicalSearch_hit Prod.snd hf] at h
        exact .inr h
      | none =>
        rw [Searcher.lexicalSearch_miss Prod.snd hf] at h
        rcases Cache.get?_put h with ⟨rfl, rfl⟩ | h
        · exact .inl ⟨places, rfl, rfl⟩
        · exact .inr h
  | clearCache => cases h
  | semanticSearch text places => exact .inr h
  | findSimilar reference places => exact .inr h
  | similarNotes reference threshold places => exact .inr h
  | setSemanticMode on => exact .inr h
  | advance seconds => exact .inr h
  | assign place field value => exact .inr h
  | loaded => exact .inr h

/-- At an earlier point of a run a search has put down the entry. -/
def PutDown (start : Desk) (steps : List Step) (query : Text) (c : CacheEntry) : Prop :=
  ∃ before places after, steps = before ++ Step.search query places :: after ∧
    c = (start.run before).newEntry query places

/-- What is kept after a run was kept before it or was put down on the way. -/
theorem kept_run {start : Desk} {steps : List Step} {c : CacheEntry}
    (h : (start.run steps).kept query = some c) :
    start.kept query = some c ∨ PutDown start steps query c := by
  induction steps using List.reverseRecOn with
  | nil => exact .inl h
  | append_singleton steps e ih =>
    rw [run_concat] at h
    rcases kept_step h with ⟨places, rfl, rfl⟩ | h
    · exact .inr ⟨steps, places, [], rfl, rfl⟩
    · rcases ih h with h | ⟨before, places, after, rfl, hc⟩
      · exact .inl h
      · exact .inr ⟨before, places, after ++ [e], by simp, hc⟩

theorem putDown_of_kept {start : Desk} (hnew : start.searcher.cache.entries = [])
    {steps : List Step} {c : CacheEntry} (h : (start.run steps).kept query = some c) :
    PutDown start steps query c := by
  refine (kept_run h).resolve_left fun hkept => ?_
  unfold kept at hkept
  rw [hnew] at hkept
  cases hkept

/-! ### The one way -/

/-- Is an entry still good? -/
def Good (d : Desk) (c : CacheEntry) : Prop := d.clock.seconds - c.time < d.searcher.cache.throttle

theorem fresh?_eq_some_iff {ids : List Text} :
    d.searcher.cache.fresh? d.clock.seconds query = some ids ↔
      ∃ c, d.kept query = some c ∧ d.Good c ∧ c.ids = ids := by
  rw [Cache.fresh?_eq_some_iff]
  constructor
  · rintro ⟨time, he, hgood⟩
    exact ⟨⟨ids, time⟩, he, hgood, rfl⟩
  · rintro ⟨c, hc, hgood, rfl⟩
    exact ⟨c.time, hc, hgood⟩

/-- The id is found: it stands in a good entry, or, without one, a handed note of that id is
found now. -/
theorem mem_lexicalIds {i : Text} :
    i ∈ (Searcher.lexicalIds Prod.snd d.searcher d.clock query (Query.parse query).descriptor
        (d.handed places)).1 ↔
      (∃ c, d.kept query = some c ∧ d.Good c ∧ i ∈ c.ids) ∨
        (∀ c, d.kept query = some c → ¬ d.Good c) ∧
          ∃ q ∈ d.matching query places, q.2.id = i := by
  unfold Searcher.lexicalIds
  cases hf : d.searcher.cache.fresh? d.clock.seconds query with
  | some ids =>
    obtain ⟨c, hc, hgood, rfl⟩ := fresh?_eq_some_iff.mp hf
    constructor
    · intro hi
      exact .inl ⟨c, hc, hgood, hi⟩
    · rintro (⟨c', hc', -, hi⟩ | ⟨hnone, -⟩)
      · rw [hc] at hc'
        cases hc'
        exact hi
      · exact absurd hgood (hnone c hc)
  | none =>
    have hnone : ∀ c, d.kept query = some c → ¬ d.Good c := by
      intro c hc hgood
      rw [fresh?_eq_some_iff.mpr ⟨c, hc, hgood, rfl⟩] at hf
      cases hf
    show i ∈ Searcher.acceptedIds Prod.snd _ d.clock.wall (d.handed places) ↔ _
    constructor
    · intro hi
      exact .inr ⟨hnone, List.mem_map.mp hi⟩
    · rintro (⟨c, hc, hgood, -⟩ | ⟨-, hq⟩)
      · exact absurd hgood (hnone c hc)
      · exact List.mem_map.mpr hq

theorem shows_iff {e : Step} :
    d.Shows e ↔ ∃ query places, e = .search query places ∧
      Searcher.route d.searcher.semanticMode query = .words (Query.parse query).descriptor ∧
      ∃ p ∈ d.handed places, p.2.isSearchable = false ∧
        Searcher.lastWithId? Prod.snd (d.handed places) p.2.id = some p ∧
        p.2.id ∈ (Searcher.lexicalIds Prod.snd d.searcher d.clock query
          (Query.parse query).descriptor (d.handed places)).1 := by
  constructor
  · rintro ⟨found, p, hfound, hp, hidden⟩
    cases e with
    | search query places =>
      have hroute := Searcher.route_of_search_hidden hfound hp hidden
      simp only [result, Searcher.search, hroute, Except.ok.injEq] at hfound
      subst hfound
      obtain ⟨hlast, hi⟩ := Searcher.mem_lexicalSearch.mp hp
      have hmem := (Searcher.lastWithId?_eq_some Prod.snd hlast).1
      exact ⟨query, places, rfl, hroute, p, hmem, hidden, hlast, hi⟩
    | semanticSearch text places =>
      obtain ⟨ps, hs, rfl⟩ := except_map_eq_ok_iff.mp hfound
      obtain ⟨x, hx, rfl⟩ := List.mem_map.mp hp
      rw [Searcher.isSearchable_of_semanticSearch hs hx] at hidden
      cases hidden
    | findSimilar reference places =>
      rw [Searcher.isSearchable_of_findSimilar hfound hp] at hidden
      cases hidden
    | similarNotes reference threshold places =>
      obtain ⟨ps, hs, rfl⟩ := except_map_eq_ok_iff.mp hfound
      obtain ⟨x, hx, rfl⟩ := List.mem_map.mp hp
      rw [Searcher.isSearchable_of_similarNotes hs hx] at hidden
      cases hidden
    | clearCache | setSemanticMode on | advance seconds | assign place field value | loaded =>
      cases hfound
      cases hp
  · rintro ⟨query, places, rfl, hroute, p, -, hidden, hlast, hi⟩
    refine ⟨_, p, ?_, Searcher.mem_lexicalSearch.mpr ⟨hlast, hi⟩, hidden⟩
    simp only [result, Searcher.search, hroute]

/-- An earlier search of the query has found a note of this id, and what it put down is there
and good still. -/
def Recalled (start : Desk) (steps : List Step) (query i : Text) : Prop :=
  ∃ before places after, steps = before ++ Step.search query places :: after ∧
    let past := start.run before
    let d := start.run steps
    d.kept query = some (past.newEntry query places) ∧ d.Good (past.newEntry query places) ∧
      ∃ q ∈ past.matching query places, q.2.id = i

/-- There is no good entry for the query, and a handed note of this id is found now. -/
def Doubled (d : Desk) (query : Text) (places : List Nat) (i : Text) : Prop :=
  (∀ c, d.kept query = some c → ¬ d.Good c) ∧ ∃ q ∈ d.matching query places, q.2.id = i

theorem recalled_iff {start : Desk} (hnew : start.searcher.cache.entries = []) {steps : List Step}
    {i : Text} : Recalled start steps query i ↔
      ∃ c, (start.run steps).kept query = some c ∧ (start.run steps).Good c ∧ i ∈ c.ids := by
  constructor
  · rintro ⟨before, places, after, -, hc, hgood, hq⟩
    exact ⟨_, hc, hgood, List.mem_map.mpr hq⟩
  · rintro ⟨c, hc, hgood, hi⟩
    obtain ⟨before, places, after, hsteps, rfl⟩ := putDown_of_kept hnew hc
    exact ⟨before, places, after, hsteps, hc, hgood, List.mem_map.mp hi⟩

/-- A step of a run shows a hidden note just if it is a search that goes word by word, the note is
the last one handed in of its id, and the id is found: an earlier search of the same query has
found a note of that id and its entry is good still, or there is no good entry and another note
with the id is found now. -/
theorem shows_run_iff (pool : List Note) (searcher : Searcher) (clock : Clock)
    (steps : List Step) (e : Step) :
    let start := new pool searcher clock
    let d := start.run steps
    d.Shows e ↔ ∃ query places, e = .search query places ∧
      Searcher.route d.searcher.semanticMode query = .words (Query.parse query).descriptor ∧
      ∃ p ∈ d.handed places, p.2.isSearchable = false ∧
        Searcher.lastWithId? Prod.snd (d.handed places) p.2.id = some p ∧
        (Recalled start steps query p.2.id ∨ Doubled d query places p.2.id) := by
  intro start d
  have hids : ∀ query places i,
      i ∈ (Searcher.lexicalIds Prod.snd d.searcher d.clock query (Query.parse query).descriptor
        (d.handed places)).1 ↔ Recalled start steps query i ∨ Doubled d query places i := by
    intro query places i
    rw [mem_lexicalIds, recalled_iff rfl]
    rfl
  rw [shows_iff]
  simp only [hids]

/-- A note that is archived right after a search comes back in the next one. -/
theorem shows_archived :
    let t := Moment.ofDate .first
    ((new [.plain "a" "milk" t] (.new (.new none)) (.startingAt t)).run
      [.search "milk" [0], .assign 0 "archived" (.bool true)]).Shows (.search "milk" [0]) := by
  refine ⟨[(0, { Note.plain "a" "milk" (Moment.ofDate .first) with archived := true })], _,
    ?_, List.mem_singleton.mpr rfl, rfl⟩
  decide +kernel

end Desk

end Notebook
