import Notebook.Proofs.Search.Hidden

/-!
# Lists that are handed in

The notes of a desk stay as they are, and searches are handed one list of them after the other.
What a search word by word finds then depends on one earlier list at most: while the answer to a
search of the same query is remembered, only notes of the list that this search was handed are
found.  Apart from that a search finds just the notes that match.
-/

namespace Notebook.Desk

/-- A step of somebody who only looks for notes.  No list that is handed in has a note twice. -/
def Step.Looks : Step → Prop
  | .search _ places => places.Nodup
  | .assign .. => False
  | _ => True

/-- The answer to the search of a query among the notes at some places is remembered: what this
search has put down is there and good still. -/
def Remembers (start : Desk) (steps : List Step) (query : Text) (places : List Nat) : Prop :=
  ∃ before after, steps = before ++ Step.search query places :: after ∧
    let past := start.run before
    let d := start.run steps
    d.kept query = some (past.newEntry query places) ∧ d.Good (past.newEntry query places)

/-! ### Notes at their places -/

theorem pool_step (d : Desk) {e : Step} (he : e.Looks) : (d.step e).pool = d.pool := by
  cases e with
  | assign place field value => exact he.elim
  | search | semanticSearch | findSimilar | similarNotes | clearCache | setSemanticMode | advance
  | loaded => rfl

theorem pool_run (d : Desk) {steps : List Step} (h : ∀ e ∈ steps, e.Looks) :
    (d.run steps).pool = d.pool := by
  induction steps generalizing d with
  | nil => rfl
  | cons e steps ih =>
    obtain ⟨he, h⟩ := List.forall_mem_cons.mp h
    exact (ih (d.step e) h).trans (pool_step d he)

variable {d : Desk} {query : Text} {places : List Nat}

theorem mem_handed {p : Nat × Note} :
    p ∈ d.handed places ↔ p.1 ∈ places ∧ d.pool[p.1]? = some p.2 := by
  obtain ⟨i, n⟩ := p
  simp only [handed, List.mem_filterMap, Option.map_eq_some_iff, Prod.mk.injEq]
  constructor
  · rintro ⟨j, hj, m, hm, rfl, rfl⟩
    exact ⟨hj, hm⟩
  · rintro ⟨hi, hn⟩
    exact ⟨i, hi, n, hn, rfl, rfl⟩

/-- A note of the desk is told by its id. -/
theorem eq_of_id_eq (hpool : (d.pool.map (·.id)).Nodup) {p q : Nat × Note}
    (hp : d.pool[p.1]? = some p.2) (hq : d.pool[q.1]? = some q.2) (hid : p.2.id = q.2.id) :
    p = q := by
  have hlt : p.1 < (d.pool.map (·.id)).length := by
    rw [List.length_map]
    exact (List.getElem?_eq_some_iff.mp hp).1
  have hplace : p.1 = q.1 := by
    refine (List.getElem?_inj hlt hpool).mp ?_
    rw [List.getElem?_map, List.getElem?_map, hp, hq, Option.map_some, Option.map_some, hid]
  have hnote : p.2 = q.2 := by
    rw [hplace, hq] at hp
    exact (Option.some.inj hp).symm
  exact Prod.ext hplace hnote

theorem nodup_ids_handed (hpool : (d.pool.map (·.id)).Nodup) (hplaces : places.Nodup) :
    ((d.handed places).map (·.2.id)).Nodup := by
  have hnodup : (d.handed places).Nodup := by
    refine hplaces.filterMap fun i j p hi hj => ?_
    obtain ⟨n, -, hn⟩ := Option.map_eq_some_iff.mp hi
    obtain ⟨m, -, hm⟩ := Option.map_eq_some_iff.mp hj
    exact congrArg Prod.fst (hn.trans hm.symm)
  refine hnodup.map_on fun p hp q hq hid => ?_
  exact eq_of_id_eq hpool (mem_handed.mp hp).2 (mem_handed.mp hq).2 hid

theorem nodup_matching (hpool : (d.pool.map (·.id)).Nodup) (hplaces : places.Nodup) :
    (d.matching query places).Nodup :=
  (nodup_ids_handed hpool hplaces).of_map.filter _

/-- The ids of notes of the desk lead to those of the notes that are handed in. -/
theorem filterMap_ids (hpool : (d.pool.map (·.id)).Nodup) (hplaces : places.Nodup)
    {found : List (Nat × Note)} (hfound : ∀ p ∈ found, d.pool[p.1]? = some p.2) :
    (found.map (·.2.id)).filterMap (Searcher.lastWithId? Prod.snd (d.handed places)) =
      found.filter (· ∈ d.handed places) := by
  induction found with
  | nil => rfl
  | cons p found ih =>
    obtain ⟨hp, hfound⟩ := List.forall_mem_cons.mp hfound
    rw [List.map_cons, List.filterMap_cons, ih hfound]
    by_cases hmem : p ∈ d.handed places
    · have hlast := Searcher.lastWithId?_of_mem Prod.snd (nodup_ids_handed hpool hplaces) hmem
      rw [hlast, List.filter_cons_of_pos (by simpa using hmem)]
    · have hnone : Searcher.lastWithId? Prod.snd (d.handed places) p.2.id = none := by
        refine (Searcher.lastWithId?_eq_none_iff Prod.snd).mpr fun hid => hmem ?_
        obtain ⟨q, hq, hid⟩ := List.mem_map.mp hid
        rwa [eq_of_id_eq hpool hp (mem_handed.mp hq).2 hid.symm]
      rw [hnone, List.filter_cons_of_neg (by simpa using hmem)]

/-! ### What is remembered -/

/-- With the same notes and without a look at the clock the same notes match. -/
theorem matching_congr {d' : Desk} (hpool : d'.pool = d.pool)
    (hq : (Query.parse query).descriptor.requireOverdue = false) (places : List Nat) :
    d'.matching query places = d.matching query places := by
  unfold matching handed
  rw [hpool]
  exact List.filter_congr fun p _ => Descriptor.accepts_congr_now hq _ _ p.2

theorem fresh?_of_remembers {start : Desk} {steps : List Step}
    (h : Remembers start steps query places) :
    ∃ ids, (start.run steps).searcher.cache.fresh? (start.run steps).clock.seconds query =
      some ids := by
  obtain ⟨before, after, -, hkept, hgood⟩ := h
  exact ⟨_, fresh?_eq_some_iff.mpr ⟨_, hkept, hgood, rfl⟩⟩

/-- What a good entry holds are the ids of the notes that match now, of those that were handed to
the search that put it down. -/
theorem exists_remembers {start : Desk} (hnew : start.searcher.cache.entries = [])
    {steps : List Step} (hsteps : ∀ e ∈ steps, e.Looks)
    (hq : (Query.parse query).descriptor.requireOverdue = false) {ids : List Text}
    (h : (start.run steps).searcher.cache.fresh? (start.run steps).clock.seconds query =
      some ids) :
    ∃ places, Remembers start steps query places ∧
      ids = ((start.run steps).matching query places).map (·.2.id) := by
  obtain ⟨c, hkept, hgood, rfl⟩ := fresh?_eq_some_iff.mp h
  obtain ⟨before, places, after, rfl, rfl⟩ := putDown_of_kept hnew hkept
  refine ⟨places, ⟨before, after, rfl, hkept, hgood⟩, ?_⟩
  have hpool : (start.run before).pool =
      (start.run (before ++ Step.search query places :: after)).pool := by
    rw [pool_run start hsteps, pool_run start fun e he => hsteps e (List.mem_append_left _ he)]
  show ((start.run before).matching query places).map _ = _
  rw [matching_congr hpool hq]

/-! ### Searches one after the other -/

/-- A search word by word, for what does not depend on the time, finds handed notes that match, none
twice.  It finds all of them, in the order in which they were handed in, unless the answer to an
earlier search of the query is remembered; then it finds those that this search was handed, too, in
the order of that time. -/
theorem result_search_run {pool : List Note} (hpool : (pool.map (·.id)).Nodup)
    (searcher : Searcher) (clock : Clock) {steps : List Step} (hsteps : ∀ e ∈ steps, e.Looks)
    {query : Text} (hq : (Query.parse query).descriptor.requireOverdue = false)
    {places : List Nat} (hplaces : places.Nodup)
    (hroute : Searcher.route ((new pool searcher clock).run steps).searcher.semanticMode query =
      .words (Query.parse query).descriptor) :
    let start := new pool searcher clock
    let d := start.run steps
    ∃ found, d.result (.search query places) = .ok found ∧ found.Nodup ∧
      (∀ p ∈ found, p ∈ d.matching query places) ∧
      ((∀ earlier, ¬ Remembers start steps query earlier) ∧ found = d.matching query places ∨
        ∃ earlier, Remembers start steps query earlier ∧
          found = (d.matching query earlier).filter (· ∈ d.handed places)) := by
  intro start d
  have hsame : d.pool = pool := pool_run start hsteps
  have hids : (d.pool.map (·.id)).Nodup := hsame ▸ hpool
  have hresult : d.result (.search query places) =
      .ok (Searcher.lexicalSearch Prod.snd d.searcher d.clock query
        (Query.parse query).descriptor (d.handed places)).1 := by
    simp only [result, Searcher.search, d, start, hroute]
  cases hfresh : d.searcher.cache.fresh? d.clock.seconds query with
  | none =>
    refine ⟨d.matching query places, ?_, nodup_matching hids hplaces, fun _ hp => hp,
      .inl ⟨fun earlier h => ?_, rfl⟩⟩
    · rw [hresult, Searcher.lexicalSearch_miss Prod.snd hfresh,
        Searcher.filterMap_acceptedIds Prod.snd (nodup_ids_handed hids hplaces)]
      rfl
    · obtain ⟨ids, h⟩ := fresh?_of_remembers h
      rw [hfresh] at h
      cases h
  | some ids =>
    obtain ⟨earlier, hremembers, rfl⟩ := exists_remembers rfl hsteps hq hfresh
    have hearlier : earlier.Nodup := by
      obtain ⟨before, after, rfl, -⟩ := hremembers
      exact hsteps _ (List.mem_append_right _ List.mem_cons_self)
    refine ⟨_, ?_, (nodup_matching hids hearlier).filter _, fun p hp => ?_,
      .inr ⟨earlier, hremembers, rfl⟩⟩
    · rw [hresult, Searcher.lexicalSearch_hit Prod.snd hfresh, filterMap_ids hids hplaces]
      intro p hp
      exact (mem_handed.mp (List.mem_filter.mp hp).1).2
    · obtain ⟨hmatching, hhanded⟩ := List.mem_filter.mp hp
      exact List.mem_filter.mpr ⟨of_decide_eq_true hhanded, (List.mem_filter.mp hmatching).2⟩

/-- Three notes match, and two of them were handed in before, the other way round. -/
theorem result_search_run_earlier :
    let t := Moment.ofDate .first
    let pool := [Note.plain "a" "milk" t, Note.plain "b" "milk" t, Note.plain "c" "milk" t]
    let steps := [Step.search "milk" [2, 0], Step.advance 0.25]
    let start := new pool (.new (.new none)) (.startingAt t)
    let d := start.run steps
    (pool.map (·.id)).Nodup ∧ (∀ e ∈ steps, e.Looks) ∧
      (Query.parse "milk").descriptor.requireOverdue = false ∧ [0, 1, 2].Nodup ∧
      Searcher.route d.searcher.semanticMode "milk" =
        .words (Query.parse "milk").descriptor ∧
      ∃ found, d.result (.search "milk" [0, 1, 2]) = .ok found ∧ found.Nodup ∧
        (∀ p ∈ found, p ∈ d.matching "milk" [0, 1, 2]) ∧
        ((∀ earlier, ¬ Remembers start steps "milk" earlier) ∧
            found = d.matching "milk" [0, 1, 2] ∨
          ∃ earlier, Remembers start steps "milk" earlier ∧
            found = (d.matching "milk" earlier).filter (· ∈ d.handed [0, 1, 2])) := by
  intro t pool steps start d
  have hpool : (pool.map (·.id)).Nodup := by decide
  have hsteps : ∀ e ∈ steps, e.Looks := by simp [steps, Step.Looks]
  have hq : (Query.parse "milk").descriptor.requireOverdue = false := by decide
  have hplaces : [0, 1, 2].Nodup := by decide
  have hroute : Searcher.route d.searcher.semanticMode "milk" =
      .words (Query.parse "milk").descriptor := by decide +kernel
  exact ⟨hpool, hsteps, hq, hplaces, hroute,
    result_search_run hpool _ _ hsteps hq hplaces hroute⟩

/-- A note that matches is not found, as it was not handed to a search of the same query right
before. -/
theorem result_search_incomplete :
    let t := Moment.ofDate .first
    let a := Note.plain "a" "milk" t
    let b := Note.plain "b" "milk" t
    let d := (new [a, b] (.new (.new none)) (.startingAt t)).run [.search "milk" [0]]
    ([a, b].map (·.id)).Nodup ∧
      (Query.parse "milk").descriptor.requireOverdue = false ∧
      Searcher.route d.searcher.semanticMode "milk" = .words (Query.parse "milk").descriptor ∧
      d.matching "milk" [0, 1] = [(0, a), (1, b)] ∧
      d.result (.search "milk" [0, 1]) = .ok [(0, a)] :=
  ⟨by decide, by decide, by decide +kernel, by decide +kernel, by decide +kernel⟩

end Notebook.Desk
