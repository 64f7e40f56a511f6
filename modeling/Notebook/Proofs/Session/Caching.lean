import Notebook.Proofs.Analysis.Face
import Notebook.Note.Record
import Notebook.Proofs.Search.Lexical
import Notebook.Session

/-!
# A cache that does not show

A session searches the notes of its own store.  However it was used before, a query that does not
ask for the time finds what it would find if nothing were kept: the entry of a query holds the ids
of the notes that the query finds now, in order, and ids of notes that are gone.
-/

namespace Notebook

/-! ### Entries that tell the truth -/

/-- Of the ids that notes have, the entry of a query holds just those that the query finds. -/
def Cache.Tells (c : Cache) (ns : List Note) : Prop :=
  ∀ q e, c.entries.get? q = some e → (Query.parse q).descriptor.requireOverdue = false → ∀ t,
    e.ids.filter (· ∈ ns.map (·.id)) = Searcher.acceptedIds id (Query.parse q).descriptor t ns

namespace Cache.Tells

variable {c : Cache} {ns : List Note}

theorem clear (c : Cache) (ns : List Note) : c.clear.Tells ns := by
  intro q e he
  cases he

/-- What a query finds now may be kept for it. -/
theorem put (h : c.Tells ns) (seconds : Float) (query : Text) (now : Moment) :
    (c.put seconds query
      (Searcher.acceptedIds id (Query.parse query).descriptor now ns)).Tells ns := by
  intro q e he hq t
  rcases Cache.get?_put he with ⟨rfl, rfl⟩ | he
  · have hsame : ∀ a, (Query.parse q).descriptor.accepts now a =
        (Query.parse q).descriptor.accepts t a := Descriptor.accepts_congr_now hq now t
    have hids : Searcher.acceptedIds id (Query.parse q).descriptor now ns =
        Searcher.acceptedIds id (Query.parse q).descriptor t ns := by
      simp [Searcher.acceptedIds, hsame]
    rw [← hids]
    refine List.filter_eq_self.mpr fun i hi => ?_
    obtain ⟨a, ha, -, rfl⟩ := (Searcher.mem_acceptedIds id).mp hi
    simpa using ⟨a, ha, rfl⟩
  · exact h q e he hq t

/-- Queries word by word see nothing of a note but its face. -/
theorem of_faces (h : c.Tells ns) {ns' : List Note}
    (hf : ns'.map Note.face = ns.map Note.face) : c.Tells ns' := by
  have hids : ns'.map (·.id) = ns.map (·.id) := by
    have := congrArg (List.map Note.id) hf
    rwa [List.map_map, List.map_map] at this
  have hfound : ∀ (d : Descriptor) t (l : List Note), Searcher.acceptedIds id d t l =
      Searcher.acceptedIds id d t (l.map Note.face) := by
    intro d t l
    simp only [Searcher.acceptedIds, List.filter_map, List.map_map, Function.comp_def, id_eq,
      Descriptor.accepts_face, Note.id_face]
  intro q e he hq t
  rw [hids, hfound _ t ns', hf, ← hfound]
  exact h q e he hq t

/-- When a note goes, its id tells nothing any more. -/
theorem without (h : c.Tells ns) (i : Text) : c.Tells (ns.filter (·.id ≠ i)) := by
  intro q e he hq t
  have hsplit : e.ids.filter (· ∈ (ns.filter (·.id ≠ i)).map (·.id)) =
      (e.ids.filter (· ∈ ns.map (·.id))).filter (· ≠ i) := by
    rw [List.filter_filter]
    refine List.filter_congr fun j _ => ?_
    rw [← Bool.decide_and]
    refine decide_eq_decide.mpr ?_
    simp only [List.mem_map, List.mem_filter, decide_eq_true_eq]
    constructor
    · rintro ⟨a, ⟨ha, hi⟩, rfl⟩
      exact ⟨hi, a, ha, rfl⟩
    · rintro ⟨hi, a, ha, rfl⟩
      exact ⟨a, ⟨ha, hi⟩, rfl⟩
  rw [hsplit, h q e he hq t]
  simp only [Searcher.acceptedIds, List.filter_map, List.filter_filter, id_eq]
  congr 1
  refine List.filter_congr fun a _ => ?_
  simp [Bool.and_comm]

/-- A good entry leads to the notes that the query finds now. -/
theorem found (h : c.Tells ns) (hnd : (ns.map (·.id)).Nodup) {query : Text}
    (hq : (Query.parse query).descriptor.requireOverdue = false) {seconds : Float}
    {ids : List Text} (hids : c.fresh? seconds query = some ids) (t : Moment) :
    ids.filterMap (Searcher.lastWithId? id ns) =
      ns.filter ((Query.parse query).descriptor.accepts t ·) := by
  obtain ⟨time, he, -⟩ := Cache.fresh?_eq_some_iff.mp hids
  have htrue := h query _ he hq t
  calc ids.filterMap (Searcher.lastWithId? id ns)
      = (ids.filter (· ∈ ns.map (·.id))).filterMap (Searcher.lastWithId? id ns) :=
        (Searcher.filterMap_lastWithId?_filter id ns ids).symm
    _ = (Searcher.acceptedIds id (Query.parse query).descriptor t ns).filterMap
          (Searcher.lastWithId? id ns) := by rw [← htrue]
    _ = ns.filter ((Query.parse query).descriptor.accepts t ·) :=
        Searcher.filterMap_acceptedIds id hnd _ t

end Cache.Tells

namespace Session

/-! ### Steps -/

/-- One use of a session on its own notes. -/
inductive Step
  | search (query : Text)
  | add (n : Note)
  | delete (id : Text)
  /-- Both jobs of the analysis are done, the newer one first or last. -/
  | analyze (n : Note) (newestFirst : Bool)
  | findSimilar (reference : Note)
  | advance (seconds : Float)
  /-- The engine has come to the end of its loading. -/
  | loaded

/-- The session with nothing kept. -/
def forgetful (s : Session) : Session := { s with searcher := s.searcher.clearCache }

/-- Analyze a note, with the newer of its jobs done first. -/
def analyzeBackward? (now : Moment) (n : Note) (s : Session) : Option Session :=
  (s.pipeline.analyze? n).map fun p => { s with pipeline := p.runNewest now p.pending.length }

def engineLoaded (s : Session) : Session :=
  { s with
    searcher := { s.searcher with engine := s.searcher.engine.finish }
    pipeline := { s.pipeline with engine := s.pipeline.engine.finish } }

/-- The session and the clock after a step.  A refused step leaves both as they were. -/
def step : Session × Clock → Step → Session × Clock
  | (s, clock), .search query => ((s.search clock query none).2, clock)
  | (s, clock), .add n => ((s.add? clock.wall n).getD s, clock)
  | (s, clock), .delete id =>
    (((s.store.delete? clock.wall id).map (s.withStore ·)).getD s, clock)
  | (s, clock), .analyze n newestFirst =>
    ((if newestFirst then s.analyzeBackward? clock.wall n else s.analyze? clock.wall n).getD s,
      clock)
  | (s, clock), .findSimilar _ => (s, clock)
  | (s, clock), .advance seconds => (s, clock.advance seconds)
  | (s, clock), .loaded => (s.engineLoaded, clock)

def run (r : Session × Clock) (steps : List Step) : Session × Clock := steps.foldl step r

/-! ### What steps preserve -/

/-- The store stands ready, has no file, its notes are filed under their ids, and the cache tells
the truth about them. -/
structure Coherent (s : Session) : Prop where
  ready : s.store.Ready
  path : s.store.memory.path = none
  filed : Filed s.store.memory.notes
  tells : s.searcher.cache.Tells s.store.notes

theorem coherent_new (settings : Settings) (ns : List Note) (disk : Disk) (shared : Bool)
    (engine : Engine) (fractions : List Float) :
    (Session.new settings (.ofNotes ns disk shared) engine fractions).Coherent where
  ready := Store.ready_ofNotes ns disk shared
  path := rfl
  filed := filed_filed ns
  tells := Cache.Tells.clear (.new settings.queryThrottleSeconds settings.queryCacheMaxEntries) _

variable {s : Session}

theorem Coherent.search (h : s.Coherent) (clock : Clock) (query : Text) :
    (s.search clock query none).2.Coherent := by
  refine ⟨h.ready, h.path, h.filed, ?_⟩
  simp only [Session.search, Searcher.search, Option.getD_none]
  split
  · exact h.tells
  · exact h.tells
  · exact h.tells
  · next d hd =>
    cases hf : s.searcher.cache.fresh? clock.seconds query with
    | some ids =>
      rw [Searcher.lexicalSearch_hit id hf]
      exact h.tells
    | none =>
      rw [Searcher.lexicalSearch_miss id hf]
      obtain rfl := Searcher.eq_of_route_words hd
      exact h.tells.put clock.seconds query clock.wall

/-- Another store with the same faces. -/
theorem Coherent.of_faces (h : s.Coherent) {s' : Session} (hr : s'.store.Ready)
    (hp : s'.store.memory.path = s.store.memory.path)
    (hf : faces s'.store.memory.notes = faces s.store.memory.notes)
    (hc : s'.searcher.cache = s.searcher.cache) : s'.Coherent where
  ready := hr
  path := hp.trans h.path
  filed := h.filed.of_faces_eq hf
  tells := by
    rw [hc]
    refine h.tells.of_faces ?_
    have := congrArg Keyed.values hf
    rwa [values_faces, values_faces] at this

/-- The pipeline with the two jobs of a note. -/
def handedIn (p : Pipeline) (n : Note) : Pipeline :=
  { p with pending := p.pending ++ Pipeline.jobsOf n }

theorem Coherent.step (h : s.Coherent) (clock : Clock) (e : Step) :
    (Session.step (s, clock) e).1.Coherent := by
  cases e with
  | search query => exact h.search clock query
  | add n =>
    have hnone : s.store.failure? clock.wall (.add n) = none := by
      have honPath : s.store.memory.OnPath := fun path hpath => by
        rw [h.path] at hpath
        cases hpath
      rw [Store.failure?, h.ready.idle]
      exact honPath.failureOf? (.add n)
    have ha : s.add? clock.wall n = some { s.withStore (s.store.after clock.wall (.add n)) with
        searcher := s.searcher.clearCache } := by
      simp only [add?, Store.add?, Store.write?_of_ready h.ready, Option.map_some, hnone]
    simp only [Session.step, ha, Option.getD_some]
    refine ⟨⟨h.ready.isOpen, rfl⟩, (Memory.path_add n s.store.memory).trans h.path, ?_,
      Cache.Tells.clear s.searcher.cache _⟩
    have := h.filed.insert n
    rwa [← Memory.notes_add] at this
  | delete id =>
    simp only [Session.step, Store.delete?, Store.write?_of_ready h.ready, Option.map_some,
      Option.getD_some]
    have hnotes : ((s.withStore (s.store.after clock.wall (.delete id))).store.memory.notes) =
        Keyed.erase id s.store.memory.notes := Memory.notes_delete id s.store.memory
    refine ⟨⟨h.ready.isOpen, rfl⟩, (Memory.path_delete id s.store.memory).trans h.path, ?_, ?_⟩
    · rw [hnotes]
      exact h.filed.erase id
    · have := h.tells.without id
      unfold Store.notes at this ⊢
      rw [hnotes, h.filed.values_erase]
      exact this
  | analyze n newestFirst =>
    cases hc : s.pipeline.closed with
    | true =>
      have ha : s.pipeline.analyze? n = none := by simp [Pipeline.analyze?, hc]
      cases newestFirst <;>
        simpa [Session.step, analyze?, analyzeBackward?, ha] using h
    | false =>
      have hp : (handedIn s.pipeline n).store.Ready := h.ready
      have ha : s.pipeline.analyze? n = some (handedIn s.pipeline n) := by
        simp [Pipeline.analyze?, handedIn, hc]
      cases newestFirst with
      | false =>
        obtain ⟨hready, hfaces, hpath⟩ := Pipeline.runOldest_faces hp clock.wall
          (handedIn s.pipeline n).pending.length
        simp only [Session.step, analyze?, ha, Option.map_some]
        exact h.of_faces hready hpath hfaces rfl
      | true =>
        obtain ⟨hready, hfaces, hpath⟩ := Pipeline.runNewest_faces hp clock.wall
          (handedIn s.pipeline n).pending.length
        simp only [Session.step, analyzeBackward?, ha, Option.map_some]
        exact h.of_faces hready hpath hfaces rfl
  | findSimilar reference => exact h
  | advance seconds => exact h
  | loaded => exact ⟨h.ready, h.path, h.filed, h.tells⟩

theorem Coherent.run (h : s.Coherent) (clock : Clock) (steps : List Step) :
    (Session.run (s, clock) steps).1.Coherent := by
  induction steps generalizing s clock with
  | nil => exact h
  | cons e steps ih => exact ih (h.step clock e) _

/-! ### The cache does not show -/

theorem Coherent.search_eq_forgetful (h : s.Coherent) (clock : Clock) {query : Text}
    (hq : (Query.parse query).descriptor.requireOverdue = false) :
    (s.search clock query none).1 = (s.forgetful.search clock query none).1 := by
  have hnd : (s.store.notes.map (·.id)).Nodup := h.filed.nodup_ids
  have hstore : s.forgetful.store = s.store := rfl
  have hsearcher : s.forgetful.searcher = s.searcher.clearCache := rfl
  have hmode : s.searcher.clearCache.semanticMode = s.searcher.semanticMode := rfl
  simp only [Session.search, Searcher.search, Option.getD_none, hstore, hsearcher, hmode]
  cases hr : Searcher.route s.searcher.semanticMode query with
  | everything => rfl
  | nothing => rfl
  | meaning text => rfl
  | words d =>
    obtain rfl := Searcher.eq_of_route_words hr
    have hmiss : s.searcher.clearCache.cache.fresh? clock.seconds query = none :=
      Cache.fresh?_clear _ _ _
    show Except.ok (Searcher.lexicalSearch id s.searcher clock query _ s.store.notes).1 =
      Except.ok (Searcher.lexicalSearch id s.searcher.clearCache clock query _ s.store.notes).1
    rw [Searcher.lexicalSearch_miss id hmiss, Searcher.filterMap_acceptedIds id hnd]
    cases hf : s.searcher.cache.fresh? clock.seconds query with
    | none => rw [Searcher.lexicalSearch_miss id hf, Searcher.filterMap_acceptedIds id hnd]
    | some ids =>
      rw [Searcher.lexicalSearch_hit id hf, h.tells.found hnd hq hf clock.wall]
      simp only [id]

/-- A search of a used session for what does not depend on the time finds the notes, in order,
that it would find with nothing kept. -/
theorem search_run_eq_forgetful (settings : Settings) (ns : List Note) (disk : Disk)
    (shared : Bool) (engine : Engine) (fractions : List Float) (clock : Clock)
    (steps : List Step) (query : Text)
    (hq : (Query.parse query).descriptor.requireOverdue = false) :
    let r := run (.new settings (.ofNotes ns disk shared) engine fractions, clock) steps
    (r.1.search r.2 query none).1 = (r.1.forgetful.search r.2 query none).1 :=
  ((coherent_new settings ns disk shared engine fractions).run clock steps).search_eq_forgetful
    _ hq

/-- The entry of a query outlives one of its notes, and the answer does not show it. -/
theorem search_after_delete_eq_forgetful :
    let t := Moment.ofDate .first
    let r := run (.new .default (.ofNotes [.plain "a" "milk" t, .plain "b" "milk" t] [] false)
      (.new none) [], .startingAt t) [.search "milk", .delete "a", .advance 0.25]
    (Query.parse "milk").descriptor.requireOverdue = false ∧
      r.1.searcher.cache.fresh? r.2.seconds "milk" = some [("a" : Text), ("b" : Text)] ∧
      (r.1.search r.2 "milk" none).1 = (r.1.forgetful.search r.2 "milk" none).1 :=
  ⟨by decide, by decide +kernel, search_run_eq_forgetful _ _ _ _ _ _ _ _ _ (by decide)⟩

end Session

end Notebook
