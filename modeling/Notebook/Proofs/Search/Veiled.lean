import Notebook.Proofs.Search.Handed

/-!
# Lists without hidden notes

Two desks go the same way, but at one of them the hidden notes are taken out of every list that is
handed in.  The answers are the same.  There are two ways on which a hidden note still counts where
it was not taken out: its id stands in an entry that the searcher had kept before the desks parted,
or its embedding cannot be compared with that of the query at all.
-/

namespace Notebook

namespace Searcher

variable {α : Type} {note : α → Note} {items : List α}

/-- The items that are not hidden. -/
def visible (note : α → Note) (items : List α) : List α :=
  items.filter fun a => (note a).isSearchable

/-! ### Answers that never see hidden items -/

theorem others_visible (reference : Note) :
    others note reference (visible note items) = others note reference items := by
  unfold others visible
  rw [List.filter_filter]
  refine List.filter_congr fun a _ => ?_
  rw [Bool.and_assoc, Bool.and_self]

theorem similarNotes_visible (s : Searcher) (reference : Note) (threshold : Option Float) :
    similarNotes note s reference threshold (visible note items) =
      similarNotes note s reference threshold items := by
  simp only [similarNotes, others_visible]

theorem findSimilar_visible (s : Searcher) (reference : Note) :
    findSimilar note s reference (visible note items) = findSimilar note s reference items := by
  simp only [findSimilar, similarNotes_visible]

theorem acceptedIds_visible (d : Descriptor) (now : Moment) :
    acceptedIds note d now (visible note items) = acceptedIds note d now items := by
  unfold acceptedIds visible
  rw [List.filter_filter]
  refine congrArg _ (List.filter_congr fun a _ => ?_)
  rw [Bool.and_eq_left_iff_imp]
  exact Descriptor.isSearchable_of_accepts

/-! ### By meaning -/

/-- The meaning of a text is looked for, and there is no answer because of hidden items alone. -/
def Spoiled (note : α → Note) (s : Searcher) (text : Text) (items : List α) : Prop :=
  ∃ query, s.engine.embed text = .ok (some query) ∧
    Similarity.Spoiled query (fun a => (note a).embedding) (fun a => (note a).isSearchable) items

theorem semanticSearch_visible {s : Searcher} {text : Text} (h : ¬ Spoiled note s text items) :
    semanticSearch note s text (visible note items) = semanticSearch note s text items := by
  unfold semanticSearch
  split
  · rfl
  · rfl
  · next query hquery =>
    have hspoiled := fun hs => h ⟨query, hquery, hs⟩
    unfold rank visible
    rw [Similarity.rank_filter_of_not_spoiled hspoiled]
    cases Similarity.rank query (fun a => (note a).embedding) s.semanticThreshold false items with
    | error e => rfl
    | ok ps =>
      simp only [Except.map, Except.mapError, List.filter_filter, Bool.and_self]

theorem semanticSearch_of_spoiled {s : Searcher} {text : Text} (h : Spoiled note s text items) :
    (∃ e, semanticSearch note s text items = .error e) ∧
      ∃ ps, semanticSearch note s text (visible note items) = .ok ps := by
  obtain ⟨query, hquery, hs⟩ := h
  obtain ⟨⟨e, he⟩, ps, hps⟩ :=
    Similarity.exists_rank_of_spoiled s.semanticThreshold false hs
  constructor
  · refine ⟨.incomparable e, ?_⟩
    simp only [semanticSearch, hquery, rank, he, Except.map, Except.mapError]
  · refine ⟨ps.filter fun p => (note p.1).isSearchable, ?_⟩
    simp only [semanticSearch, hquery, rank, visible, hps, Except.map, Except.mapError]

/-! ### Word by word -/

theorem lastWithId?_filter {p : α → Bool} {i : Text}
    (h : ∀ a ∈ items, (note a).id = i → p a = true) :
    lastWithId? note (items.filter p) i = lastWithId? note items i := by
  unfold lastWithId?
  rw [← List.filter_reverse, ← List.head?_filter, ← List.head?_filter, List.filter_filter]
  refine congrArg _ (List.filter_congr fun a ha => ?_)
  rw [Bool.and_eq_left_iff_imp, decide_eq_true_eq]
  exact h a (List.mem_reverse.mp ha)

theorem filterMap_lastWithId?_visible {ids : List Text}
    (h : ∀ a ∈ items, (note a).id ∈ ids → (note a).isSearchable = true) :
    ids.filterMap (lastWithId? note (visible note items)) =
      ids.filterMap (lastWithId? note items) :=
  List.filterMap_congr fun _ hi => lastWithId?_filter fun a ha hid => h a ha (hid ▸ hi)

/-- Among items that are told by their ids it shows if an id is that of a hidden one. -/
theorem filterMap_lastWithId?_visible_iff {ids : List Text}
    (hone : ∀ a ∈ items, ∀ b ∈ items, (note a).id = (note b).id → a = b) :
    ids.filterMap (lastWithId? note (visible note items)) =
        ids.filterMap (lastWithId? note items) ↔
      ∀ a ∈ items, (note a).id ∈ ids → (note a).isSearchable = true := by
  refine ⟨fun hsame a ha hid => ?_, filterMap_lastWithId?_visible⟩
  have hlast : lastWithId? note items (note a).id = some a :=
    lastWithId?_of_unique note ha fun b hb => hone b hb a ha
  have hmem : a ∈ ids.filterMap (lastWithId? note (visible note items)) := by
    rw [hsame]
    exact List.mem_filterMap.mpr ⟨_, hid, hlast⟩
  obtain ⟨i, -, hi⟩ := List.mem_filterMap.mp hmem
  exact (List.mem_filter.mp (lastWithId?_eq_some note hi).1).2

/-! ### The searcher afterwards -/

/-- The same searcher with another number of matches counted. -/
def counting (m : Nat) (s : Searcher) : Searcher := { s with matched := m }

/-- No search looks at the count. -/
theorem exists_search_counting (note : α → Note) (s : Searcher) (m : Nat) (clock : Clock)
    (query : Text) (items : List α) :
    ∃ m', (s.counting m).search note clock query items =
      ((s.search note clock query items).1, (s.search note clock query items).2.counting m') := by
  have hmode : (s.counting m).semanticMode = s.semanticMode := rfl
  simp only [search, hmode]
  cases route s.semanticMode query with
  | everything | nothing | meaning => exact ⟨m, rfl⟩
  | words d =>
    have hcache : (s.counting m).cache.fresh? clock.seconds query =
      s.cache.fresh? clock.seconds query := rfl
    cases hfresh : s.cache.fresh? clock.seconds query with
    | some ids =>
      simp only [lexicalSearch_hit note hfresh, lexicalSearch_hit note (hcache.trans hfresh)]
      exact ⟨m, rfl⟩
    | none =>
      simp only [lexicalSearch_miss note hfresh, lexicalSearch_miss note (hcache.trans hfresh)]
      exact ⟨_, rfl⟩

/-- What is kept does not depend on hidden items. -/
theorem exists_search_visible (note : α → Note) (s : Searcher) (clock : Clock) (query : Text)
    (items : List α) :
    ∃ m, (s.search note clock query (visible note items)).2 =
      (s.search note clock query items).2.counting m := by
  simp only [search]
  cases route s.semanticMode query with
  | everything | nothing | meaning => exact ⟨s.matched, rfl⟩
  | words d =>
    cases hfresh : s.cache.fresh? clock.seconds query with
    | some ids =>
      simp only [lexicalSearch_hit note hfresh]
      exact ⟨s.matched, rfl⟩
    | none =>
      simp only [lexicalSearch_miss note hfresh, acceptedIds_visible]
      exact ⟨_, rfl⟩

end Searcher

namespace Desk

/-! ### What is handed in -/

/-- The places at which no hidden note stands. -/
def seen (pool : List Note) (places : List Nat) : List Nat :=
  places.filter fun i => pool[i]?.all Note.isSearchable

/-- The step with the hidden notes taken out of the list that is handed in. -/
def Step.veiled (pool : List Note) : Step → Step
  | .search query places => .search query (seen pool places)
  | .semanticSearch text places => .semanticSearch text (seen pool places)
  | .findSimilar reference places => .findSimilar reference (seen pool places)
  | .similarNotes reference threshold places =>
    .similarNotes reference threshold (seen pool places)
  | e => e

theorem handed_seen (d : Desk) (places : List Nat) :
    d.handed (seen d.pool places) = Searcher.visible Prod.snd (d.handed places) := by
  unfold handed Searcher.visible seen
  induction places with
  | nil => rfl
  | cons i places ih =>
    rw [List.filter_cons, List.filterMap_cons]
    cases hi : d.pool[i]? with
    | none => simpa [hi] using ih
    | some n => cases hn : n.isSearchable <;> simpa [hi, hn] using ih

/-! ### Two desks -/

/-- The same desk with another number of matches counted. -/
def counting (m : Nat) (d : Desk) : Desk := { d with searcher := d.searcher.counting m }

theorem exists_step_veiled (d : Desk) (m : Nat) (e : Step) :
    ∃ m', (d.counting m).step (e.veiled d.pool) = (d.step e).counting m' := by
  cases e with
  | search query places =>
    have hhanded : (d.counting m).handed (seen d.pool places) =
        Searcher.visible Prod.snd (d.handed places) := handed_seen d places
    obtain ⟨m₁, h₁⟩ := Searcher.exists_search_counting Prod.snd d.searcher m d.clock query
      (Searcher.visible Prod.snd (d.handed places))
    obtain ⟨m₂, h₂⟩ := Searcher.exists_search_visible Prod.snd d.searcher d.clock query
      (d.handed places)
    refine ⟨m₁, ?_⟩
    have hsearcher : ((d.counting m).searcher.search Prod.snd d.clock query
        (Searcher.visible Prod.snd (d.handed places))).2 =
        (d.searcher.search Prod.snd d.clock query (d.handed places)).2.counting m₁ := by
      show ((d.searcher.counting m).search Prod.snd d.clock query _).2 = _
      rw [h₁, h₂]
      rfl
    simp only [Step.veiled, step, hhanded]
    exact congrArg (fun s => (⟨d.pool, s, d.clock⟩ : Desk)) hsearcher
  | semanticSearch | findSimilar | similarNotes | clearCache | setSemanticMode | advance | assign
  | loaded => exact ⟨m, rfl⟩

/-- Both desks are the same all the way, but for the count. -/
theorem exists_run_veiled (start : Desk) {steps : List Step} (h : ∀ e ∈ steps, e.Looks) :
    ∃ m, start.run (steps.map (Step.veiled start.pool)) = (start.run steps).counting m := by
  induction steps using List.reverseRecOn with
  | nil => exact ⟨start.searcher.matched, rfl⟩
  | append_singleton steps e ih =>
    have hsteps : ∀ e ∈ steps, e.Looks := fun e he => h e (List.mem_append_left _ he)
    obtain ⟨m, hm⟩ := ih hsteps
    obtain ⟨m', hm'⟩ := exists_step_veiled (start.run steps) m e
    -- which notes are hidden is looked up in the pool of the start, and it is the pool of now
    rw [pool_run start hsteps] at hm'
    refine ⟨m', ?_⟩
    rw [List.map_append, List.map_singleton, run_concat, run_concat, hm, hm']

/-! ### Answers -/

/-- What a step answers: notes, with their scores where it has scores. -/
def answer (d : Desk) : Step → Except SearchError (List ((Nat × Note) × Option Float))
  | .semanticSearch text places =>
    (d.searcher.semanticSearch Prod.snd text (d.handed places)).map
      (·.map fun p => (p.1, some p.2))
  | .similarNotes reference threshold places =>
    (d.searcher.similarNotes Prod.snd reference threshold (d.handed places)).map
      (·.map fun p => (p.1, some p.2))
  | e => (d.result e).map (·.map fun p => (p, none))

theorem answer_counting (d : Desk) (m : Nat) (e : Step) :
    (d.counting m).answer e = d.answer e := by
  cases e with
  | search query places =>
    obtain ⟨m', h⟩ := Searcher.exists_search_counting Prod.snd d.searcher m d.clock query
      (d.handed places)
    have hresult : (d.counting m).result (.search query places) =
        d.result (.search query places) := by
      show ((d.searcher.counting m).search Prod.snd d.clock query (d.handed places)).1 = _
      rw [h]
      rfl
    simp only [answer, hresult]
  | semanticSearch | findSimilar | similarNotes | clearCache | setSemanticMode | advance | assign
  | loaded => rfl

variable {d : Desk} {query : Text} {places places' : List Nat}

theorem answer_search_eq_iff :
    d.answer (.search query places') = d.answer (.search query places) ↔
      d.result (.search query places') = d.result (.search query places) :=
  except_map_inj fun _ _ h => List.map_injective_iff.mpr (fun _ _ h => (Prod.ext_iff.mp h).1) h

/-! ### Word by word -/

/-- The id of a hidden note that is handed in stands in a good entry. -/
def Stands (d : Desk) (query : Text) (places : List Nat) (c : CacheEntry) : Prop :=
  d.kept query = some c ∧ d.Good c ∧
    ∃ p ∈ d.handed places, p.2.isSearchable = false ∧ p.2.id ∈ c.ids

theorem result_search_words
    (hroute : Searcher.route d.searcher.semanticMode query = .words (Query.parse query).descriptor)
    (places : List Nat) :
    d.result (.search query places) = .ok (Searcher.lexicalSearch Prod.snd d.searcher d.clock query
      (Query.parse query).descriptor (d.handed places)).1 := by
  simp only [result, Searcher.search, hroute]

/-- An accepted id is that of one note, which is not hidden. -/
theorem isSearchable_of_mem_acceptedIds (hpool : (d.pool.map (·.id)).Nodup) {desc : Descriptor}
    {now : Moment} {p : Nat × Note} (hp : p ∈ d.handed places)
    (hid : p.2.id ∈ Searcher.acceptedIds Prod.snd desc now (d.handed places')) :
    p.2.isSearchable = true := by
  obtain ⟨q, hq, haccepts, hid⟩ := (Searcher.mem_acceptedIds Prod.snd).mp hid
  rw [← eq_of_id_eq hpool (mem_handed.mp hq).2 (mem_handed.mp hp).2 hid]
  exact Descriptor.isSearchable_of_accepts haccepts

theorem result_search_seen_iff (hpool : (d.pool.map (·.id)).Nodup)
    (hroute : Searcher.route d.searcher.semanticMode query =
      .words (Query.parse query).descriptor) :
    d.result (.search query (seen d.pool places)) = d.result (.search query places) ↔
      ∀ c, ¬ Stands d query places c := by
  rw [result_search_words hroute, result_search_words hroute, handed_seen, Except.ok.injEq]
  cases hfresh : d.searcher.cache.fresh? d.clock.seconds query with
  | none =>
    rw [Searcher.lexicalSearch_miss Prod.snd hfresh, Searcher.lexicalSearch_miss Prod.snd hfresh,
      Searcher.acceptedIds_visible]
    constructor
    · rintro - c ⟨hkept, hgood, -⟩
      rw [fresh?_eq_some_iff.mpr ⟨c, hkept, hgood, rfl⟩] at hfresh
      cases hfresh
    · rintro -
      exact Searcher.filterMap_lastWithId?_visible fun p hp =>
        isSearchable_of_mem_acceptedIds hpool hp
  | some ids =>
    obtain ⟨c, hkept, hgood, rfl⟩ := fresh?_eq_some_iff.mp hfresh
    have hone : ∀ p ∈ d.handed places, ∀ q ∈ d.handed places, p.2.id = q.2.id → p = q :=
      fun p hp q hq => eq_of_id_eq hpool (mem_handed.mp hp).2 (mem_handed.mp hq).2
    rw [Searcher.lexicalSearch_hit Prod.snd hfresh, Searcher.lexicalSearch_hit Prod.snd hfresh]
    refine (Searcher.filterMap_lastWithId?_visible_iff hone).trans ⟨?_, ?_⟩
    · rintro hshown c' ⟨hkept', -, p, hp, hidden, hid⟩
      obtain rfl : c = c' := Option.some.inj (hkept.symm.trans hkept')
      rw [hshown p hp hid] at hidden
      cases hidden
    · intro hnone p hp hid
      by_contra hidden
      exact hnone c ⟨hkept, hgood, p, hp, Bool.eq_false_iff.mpr hidden, hid⟩

/-- The searches of a run do not put down the id of a hidden note. -/
theorem kept_of_stands {start : Desk} (hpool : (start.pool.map (·.id)).Nodup) {steps : List Step}
    (hsteps : ∀ e ∈ steps, e.Looks) {c : CacheEntry}
    (h : Stands (start.run steps) query places c) : start.kept query = some c := by
  obtain ⟨hkept, -, p, hp, hidden, hid⟩ := h
  refine (kept_run hkept).resolve_right ?_
  -- a search puts down ids of notes that it accepts, and the id of `p` is that of `p` alone
  rintro ⟨before, places', after, rfl, rfl⟩
  have hbefore : ∀ e ∈ before, e.Looks := fun e he => hsteps e (List.mem_append_left _ he)
  have hp' : p ∈ (start.run before).handed places := by
    rw [mem_handed, pool_run start hsteps] at hp
    rwa [mem_handed, pool_run start hbefore]
  have hshown := isSearchable_of_mem_acceptedIds (pool_run start hbefore ▸ hpool) hp' hid
  rw [hidden] at hshown
  cases hshown

/-! ### When hidden notes count -/

/-- There is no answer by the meaning of a text because of hidden notes. -/
def Spoils (d : Desk) (text : Text) (places : List Nat) : Prop :=
  Searcher.Spoiled Prod.snd d.searcher text (d.handed places)

/-- Hidden notes count at a step that is done after others: a good entry for the query was there at
the start already and has the id of a hidden note, or there is no answer by meaning because of
hidden notes. -/
def Leaks (start : Desk) (steps : List Step) : Step → Prop
  | .search query places =>
    let d := start.run steps
    match Searcher.route d.searcher.semanticMode query with
    | .words _ => ∃ c, start.kept query = some c ∧ Stands d query places c
    | .meaning text => d.Spoils text places
    | _ => False
  | .semanticSearch text places => (start.run steps).Spoils text places
  | _ => False

/-- Whatever is made of it, an answer by meaning shows the hidden notes only where there is none
because of them. -/
theorem map_semanticSearch_seen_iff {β : Type} (f : List ((Nat × Note) × Float) → β)
    {text : Text} :
    (d.searcher.semanticSearch Prod.snd text (d.handed (seen d.pool places))).map f =
        (d.searcher.semanticSearch Prod.snd text (d.handed places)).map f ↔
      ¬ d.Spoils text places := by
  rw [handed_seen]
  constructor
  · rintro hsame hspoils
    obtain ⟨⟨e, he⟩, ps, hps⟩ := Searcher.semanticSearch_of_spoiled hspoils
    rw [he, hps] at hsame
    cases hsame
  · intro h
    rw [Searcher.semanticSearch_visible h]

theorem answer_seen_iff {start : Desk} (hpool : (start.pool.map (·.id)).Nodup)
    {steps : List Step} (hsteps : ∀ e ∈ steps, e.Looks) (e : Step) :
    let d := start.run steps
    d.answer (e.veiled d.pool) = d.answer e ↔ ¬ Leaks start steps e := by
  intro d
  have hpool' : (d.pool.map (·.id)).Nodup := pool_run start hsteps ▸ hpool
  cases e with
  | search query places =>
    rw [Step.veiled, answer_search_eq_iff]
    cases hroute : Searcher.route d.searcher.semanticMode query with
    | everything | nothing =>
      simp [result, Searcher.search, hroute, handed_seen, Searcher.visible, Leaks, d]
    | meaning text =>
      simp only [result, Searcher.search, hroute, Leaks, d]
      exact map_semanticSearch_seen_iff _
    | words desc =>
      obtain rfl := Searcher.eq_of_route_words hroute
      rw [result_search_seen_iff hpool' hroute]
      simp only [Leaks, d, hroute, not_exists, not_and]
      exact ⟨fun h c _ hstands => h c hstands,
        fun h c hstands => h c (kept_of_stands hpool hsteps hstands) hstands⟩
  | semanticSearch text places => exact map_semanticSearch_seen_iff _
  | findSimilar reference places =>
    simp [Step.veiled, answer, result, handed_seen, Searcher.findSimilar_visible, Leaks]
  | similarNotes reference threshold places =>
    simp [Step.veiled, answer, handed_seen, Searcher.similarNotes_visible, Leaks]
  | clearCache | setSemanticMode | advance | assign | loaded => simp [Step.veiled, Leaks]

/-- The desk without the hidden notes answers what the other one would answer without them. -/
theorem answer_run_veiled (start : Desk) {steps : List Step} (hsteps : ∀ e ∈ steps, e.Looks)
    (e : Step) :
    (start.run (steps.map (Step.veiled start.pool))).answer (e.veiled start.pool) =
      (start.run steps).answer (e.veiled (start.run steps).pool) := by
  obtain ⟨m, hm⟩ := exists_run_veiled start hsteps
  rw [hm, answer_counting, pool_run start hsteps]

/-- Where nothing is kept at the start and embeddings are rows, hidden notes count nowhere. -/
theorem answer_veiled_of_rows {start : Desk} (hpool : (start.pool.map (·.id)).Nodup)
    (hnew : start.searcher.cache.entries = [])
    (hrows : ∀ n ∈ start.pool, ∀ g ∈ n.embedding, g.shape.length ≤ 1) {steps : List Step}
    (hsteps : ∀ e ∈ steps, e.Looks) (e : Step) :
    (start.run (steps.map (Step.veiled start.pool))).answer (e.veiled start.pool) =
      (start.run steps).answer e := by
  rw [answer_run_veiled start hsteps]
  refine (answer_seen_iff hpool hsteps e).mpr ?_
  have hspoils : ∀ text places, ¬ (start.run steps).Spoils text places := by
    rintro text places ⟨query, -, ⟨p, hp, hclash⟩, -⟩
    refine Similarity.not_clashes_of_row (fun g hg => ?_) hclash
    have hn := List.mem_of_getElem? (mem_handed.mp hp).2
    rw [pool_run start hsteps] at hn
    exact hrows p.2 hn g hg
  have hkept : ∀ query c, start.kept query ≠ some c := by
    intro query c h
    unfold kept at h
    rw [hnew] at h
    cases h
  cases e with
  | search query places =>
    unfold Leaks
    simp only
    split
    · rintro ⟨c, hc, -⟩
      exact hkept query c hc
    · exact hspoils _ _
    · exact not_false
  | semanticSearch text places => exact hspoils text places
  | findSimilar | similarNotes | clearCache | setSemanticMode | advance | assign | loaded =>
    exact not_false

/-- At two desks that go the same way, one of them without the hidden notes, a step has the same
answer just if hidden notes do not count at it. -/
theorem answer_veiled_iff {start : Desk} (hpool : (start.pool.map (·.id)).Nodup)
    {steps : List Step} (hsteps : ∀ e ∈ steps, e.Looks) (e : Step) :
    (start.run (steps.map (Step.veiled start.pool))).answer (e.veiled start.pool) =
      (start.run steps).answer e ↔ ¬ Leaks start steps e := by
  rw [answer_run_veiled start hsteps]
  exact answer_seen_iff hpool hsteps e

/-- A search is done again while its answer is remembered; a hidden note is handed in each time. -/
theorem answer_veiled_again :
    let t := Moment.ofDate .first
    let start := new [{ Note.plain "a" "milk" t with archived := true }, .plain "b" "milk" t]
      (.new (.new none)) (.startingAt t)
    let steps := [Step.search "milk" [0, 1], Step.advance 0.25]
    let e := Step.search "milk" [1, 0]
    (start.pool.map (·.id)).Nodup ∧ (∀ e ∈ steps, e.Looks) ∧ ¬ Leaks start steps e ∧
      (start.run (steps.map (Step.veiled start.pool))).answer (e.veiled start.pool) =
        (start.run steps).answer e := by
  intro t start steps e
  have hpool : (start.pool.map (·.id)).Nodup := by decide
  have hsteps : ∀ e ∈ steps, e.Looks := by simp [steps, Step.Looks]
  have hroute : Searcher.route (start.run steps).searcher.semanticMode "milk" =
      .words (Query.parse "milk").descriptor := by decide +kernel
  have hleaks : ¬ Leaks start steps e := by
    simp only [Leaks, e, hroute]
    rintro ⟨c, hc, -⟩
    cases hc
  exact ⟨hpool, hsteps, hleaks, (answer_veiled_iff hpool hsteps e).mpr hleaks⟩

/-- A note that was found before it was hidden is found by one desk and not by the other. -/
theorem answer_veiled_ne :
    let t := Moment.ofDate .first
    let start := (new [.plain "a" "milk" t, .plain "b" "milk" t] (.new (.new none))
      (.startingAt t)).run [.search "milk" [0, 1], .assign 1 "system" (.bool true)]
    let steps := [Step.advance 0.25]
    let e := Step.search "milk" [0, 1]
    (start.pool.map (·.id)).Nodup ∧ (∀ e ∈ steps, e.Looks) ∧ e.Looks ∧
      (start.run steps).answer e =
        .ok [((0, .plain "a" "milk" t), none),
          ((1, { Note.plain "b" "milk" t with system := true }), none)] ∧
      (start.run (steps.map (Step.veiled start.pool))).answer (e.veiled start.pool) =
        .ok [((0, .plain "a" "milk" t), none)] :=
  ⟨by decide +kernel, by simp [Step.Looks], by simp [Step.Looks], by decide +kernel,
    by decide +kernel⟩

end Desk

end Notebook
