import Notebook.Proofs.Query.Asked
import Notebook.Proofs.Query.Grammar
import Notebook.Proofs.Search.Hidden
import Notebook.Proofs.Search.Route

/-!
# Queries that ask for meaning

A query with a semantic term is answered from its semantic terms alone.  Nothing else that stands
in it, no earlier step, no clock and no entry of the cache has a part in the answer, and the
searcher is left as it was.
-/

namespace Notebook

/-! ### The terms of a query -/

namespace Query

/-- What stands behind the mark in the words of a query that ask for meaning, in order. -/
def terms (raw : Text) : List Text := (wordsIn (some .semantic) (Text.words raw)).map termOf

theorem semanticTerms_parse (raw : Text) : (parse raw).descriptor.semanticTerms = terms raw := by
  unfold parse tokens
  rw [ofTokens_words]
  rfl

variable {raw : Text}

theorem words_ne_nil_of_terms (h : terms raw ≠ []) : Text.words raw ≠ [] := by
  intro hwords
  rw [terms, hwords] at h
  exact h rfl

/-- A word that asks for meaning is valid. -/
theorem not_allInvalid_of_terms (h : terms raw ≠ []) :
    ¬ ∀ t ∈ tokens raw, t.isInvalid = true := by
  intro hall
  obtain ⟨term, hterm⟩ := List.exists_mem_of_ne_nil _ h
  rw [← semanticTerms_parse] at hterm
  have hinvalid := hall _ ((mem_semanticTerms term).mp hterm)
  cases hinvalid

end Query

namespace Searcher

/-- A query with semantic terms asks for their meaning, in either mode. -/
theorem route_of_terms {semanticMode : Bool} {q : Text} (h : Query.terms q ≠ []) :
    route semanticMode q = .meaning (Text.intercalate " " (Query.terms q)) := by
  have hterms : meaningTerms semanticMode (Query.parse q).descriptor = Query.terms q := by
    have hsemantic : (Query.parse q).descriptor.isSemantic = true := by
      simpa [Descriptor.isSemantic, Query.semanticTerms_parse] using h
    rw [meaningTerms, if_pos hsemantic, Query.semanticTerms_parse]
  rw [route_of_valid (Query.words_ne_nil_of_terms h) (Query.not_allInvalid_of_terms h), routeOf,
    hterms]
  split
  · next hnil => exact absurd hnil h
  · rfl

/-! ### Answers by meaning -/

variable {α : Type} (note : α → Note)

/-- The searchable items among those whose similarity to a text is above a threshold, best
first. -/
def nearest (engine : Engine) (threshold : Float) (text : Text) (items : List α) :
    Except SearchError (List α) :=
  match engine.embed text with
  | .error m => .error (.mismatch m)
  | .ok none => .ok []
  | .ok (some v) => (rank note v threshold false items).map fun ranked =>
      (ranked.map Prod.fst).filter fun a => (note a).isSearchable

/-- Items whose scores fall stay in their order. -/
theorem nearest_of_falling {engine : Engine} {threshold : Float} {text : Text} {items : List α}
    {v : Grid} (hv : engine.embed text = .ok (some v)) {ps : List (α × Float)}
    (hps : Similarity.scores v (fun a => (note a).embedding) items = .ok ps)
    (hfalling : (ps.filter fun p => Similarity.reaches threshold false p.2).Pairwise
      fun p q => ¬ p.2 < q.2) :
    nearest note engine threshold text items =
      .ok (((ps.filter fun p => Similarity.reaches threshold false p.2).map Prod.fst).filter
        fun a => (note a).isSearchable) := by
  have hranked : rankBy (fun x y : Float => y < x) Prod.snd
      (ps.filter fun p => Similarity.reaches threshold false p.2) =
        ps.filter fun p => Similarity.reaches threshold false p.2 :=
    List.mergeSort_of_pairwise (hfalling.imp fun h => by simpa using h)
  simp only [nearest, hv, rank, Similarity.rank, hps, Except.map, Except.mapError, hranked]

theorem map_semanticSearch (s : Searcher) (text : Text) (items : List α) :
    (semanticSearch note s text items).map (·.map Prod.fst) =
      nearest note s.engine s.semanticThreshold text items := by
  unfold semanticSearch nearest
  cases s.engine.embed text with
  | error m => rfl
  | ok embedding =>
    cases embedding with
    | none => rfl
    | some v =>
      cases hrank : rank note v s.semanticThreshold false items with
      | error e => simp [hrank, Except.map]
      | ok ranked =>
        simp only [hrank, Except.map, List.filter_map]
        rfl

theorem search_of_terms {q : Text} (h : Query.terms q ≠ []) (s : Searcher) (clock : Clock)
    (items : List α) :
    s.search note clock q items =
      (nearest note s.engine s.semanticThreshold (Text.intercalate " " (Query.terms q)) items,
        s) := by
  rw [search, route_of_terms h]
  show ((semanticSearch note s _ items).map (·.map Prod.fst), s) = _
  rw [map_semanticSearch]

end Searcher

/-! ### Engines at a desk -/

theorem Engine.finish_finish (e : Engine) : e.finish.finish = e.finish := by
  cases h : e.stage <;> simp [finish, h]

namespace Desk

/-- Does the loading of the engine come to its end? -/
def Step.endsLoading : Step → Bool
  | .loaded => true
  | _ => false

/-- An engine after some steps: its loading is over if one of them says so. -/
def engineAfter (engine : Engine) (steps : List Step) : Engine :=
  if steps.any Step.endsLoading then engine.finish else engine

/-- A search changes neither the engine nor the threshold. -/
theorem searcher_search {α : Type} (note : α → Note) (s : Searcher) (clock : Clock) (q : Text)
    (items : List α) :
    (s.search note clock q items).2.engine = s.engine ∧
      (s.search note clock q items).2.semanticThreshold = s.semanticThreshold := by
  unfold Searcher.search
  cases Searcher.route s.semanticMode q with
  | everything | nothing | meaning => exact ⟨rfl, rfl⟩
  | words d =>
    show (s.lexicalIds note clock q d items).2.engine = _ ∧
      (s.lexicalIds note clock q d items).2.semanticThreshold = _
    unfold Searcher.lexicalIds
    split <;> exact ⟨rfl, rfl⟩

theorem semanticThreshold_step (d : Desk) (e : Step) :
    (d.step e).searcher.semanticThreshold = d.searcher.semanticThreshold := by
  cases e with
  | search q places => exact (searcher_search Prod.snd d.searcher d.clock q _).2
  | semanticSearch | findSimilar | similarNotes | clearCache | setSemanticMode | advance | assign
  | loaded => rfl

theorem engine_step (d : Desk) (e : Step) :
    (d.step e).searcher.engine = if e.endsLoading then d.searcher.engine.finish
      else d.searcher.engine := by
  cases e with
  | search q places => exact (searcher_search Prod.snd d.searcher d.clock q _).1
  | semanticSearch | findSimilar | similarNotes | clearCache | setSemanticMode | advance | assign
  | loaded => rfl

theorem semanticThreshold_run (d : Desk) (steps : List Step) :
    (d.run steps).searcher.semanticThreshold = d.searcher.semanticThreshold := by
  induction steps using List.reverseRecOn with
  | nil => rfl
  | append_singleton steps e ih => rw [run_concat, semanticThreshold_step, ih]

theorem engine_run (d : Desk) (steps : List Step) :
    (d.run steps).searcher.engine = engineAfter d.searcher.engine steps := by
  induction steps using List.reverseRecOn with
  | nil => rfl
  | append_singleton steps e ih =>
    rw [run_concat, engine_step, ih]
    unfold engineAfter
    rw [List.any_append, List.any_cons, List.any_nil, Bool.or_false]
    cases steps.any Step.endsLoading <;> cases e.endsLoading <;> simp [Engine.finish_finish]

/-- After any steps two queries with the same semantic terms have one answer.  It is told by the
terms, the engine, the threshold and the items, and asking leaves the searcher as it is. -/
theorem search_eq_nearest (pool : List Note) (searcher : Searcher) (clock : Clock)
    (steps : List Step) {q q' : Text} (hq : Query.terms q ≠ [])
    (hsame : Query.terms q' = Query.terms q) {α : Type} (note : α → Note) (items : List α)
    (t : Clock) :
    let s := ((new pool searcher clock).run steps).searcher
    let answer := Searcher.nearest note (engineAfter searcher.engine steps)
      searcher.semanticThreshold (Text.intercalate " " (Query.terms q)) items
    s.search note t q items = (answer, s) ∧ s.search note t q' items = (answer, s) := by
  intro s answer
  have hengine : s.engine = engineAfter searcher.engine steps := engine_run _ steps
  have hthreshold : s.semanticThreshold = searcher.semanticThreshold :=
    semanticThreshold_run _ steps
  have hq' : Query.terms q' ≠ [] := hsame.symm ▸ hq
  constructor
  · rw [Searcher.search_of_terms note hq, hengine, hthreshold]
  · rw [Searcher.search_of_terms note hq', hengine, hthreshold, hsame]

/-- An invalid word, a tag and a mark without a term make no difference, in semantic mode and after
a search that was kept; of the notes that are near enough one is archived. -/
theorem search_tea_eq_nearest :
    let t := Moment.ofDate .first
    let table : WordTable := ⟨[("tea", .ofList [6.0, 8.0]), ("green", .ofList [0.0, 0.0])], 2⟩
    let engine := (Engine.new (some (some table))).start
    let near := { Note.plain "a" "Oolong" t with embedding := some (.ofList [3.0, 4.0]) }
    let hidden := { near with id := "b", archived := true }
    let far := { near with id := "c", title := "Milk", embedding := some (.ofList [-3.0, -4.0]) }
    let next := { near with id := "d", embedding := some (.ofList [4.0, 3.0]) }
    let pool := [near, hidden, far, next]
    let q : Text := "is:fav ~Tea progress:>x ~ milk ~green"
    let q' := "~Tea #cup ~green"
    let steps := [.search "milk" [0, 2], .setSemanticMode true, .loaded, .advance 0.25]
    let s := ((new pool (.new engine) (.startingAt t)).run steps).searcher
    Query.terms q ≠ [] ∧ Query.terms q' = Query.terms q ∧ s.cache.size = 1 ∧
      s.search id (.startingAt t) q pool = (.ok [near, next], s) ∧
      s.search id (.startingAt t) q' pool = (.ok [near, next], s) := by
  intro t table engine near hidden far next pool q q' steps s
  have hq : Query.terms q ≠ [] := by decide +kernel
  have hsame : Query.terms q' = Query.terms q := by decide +kernel
  have hv : (engineAfter engine steps).embed (Text.intercalate " " (Query.terms q)) =
      .ok (some (.ofList [3.0, 4.0])) := by decide +kernel
  have hps : Similarity.scores (.ofList [3.0, 4.0]) Note.embedding pool =
      .ok [(near, 1.0), (hidden, 1.0), (far, -1.0), (next, 0.96)] := by decide +kernel
  have hanswer : Searcher.nearest id (engineAfter engine steps) 0.3
      (Text.intercalate " " (Query.terms q)) pool = .ok [near, next] := by
    rw [Searcher.nearest_of_falling id hv hps (by decide +kernel)]
    decide +kernel
  have hboth := search_eq_nearest pool (.new engine) (.startingAt t) steps hq hsame id pool
    (.startingAt t)
  refine ⟨hq, hsame, by decide +kernel, ?_, ?_⟩
  · exact hboth.1.trans (congrArg (·, s) hanswer)
  · exact hboth.2.trans (congrArg (·, s) hanswer)

end Desk

end Notebook
