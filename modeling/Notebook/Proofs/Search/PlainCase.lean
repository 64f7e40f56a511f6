import Notebook.Note.Record
import Notebook.Proofs.Query.PlainCase
import Notebook.Proofs.Search.Route

/-!
# Searching in any case

Two queries that differ only in the case of plain letters find the same notes, as both find what is
found for the query in small letters.
-/

namespace Notebook

open Text

theorem Engine.embed_uncapped (e : Engine) (text : Text) :
    e.embed (uncapped text) = e.embed text := by
  have hvectors (t : WordTable) : t.knownVectors (uncapped text) = t.knownVectors text := by
    unfold WordTable.knownVectors
    rw [lower_uncapped]
  unfold Engine.embed
  cases e.table with
  | none => rfl
  | some t => simp only [WordTable.embed, hvectors]

namespace Searcher

/-- The route with all that is searched for in small letters. -/
def Route.uncapped : Route → Route
  | everything => everything
  | nothing => nothing
  | meaning text => meaning (Text.uncapped text)
  | words d => words d.uncapped

theorem meaningTerms_uncapped (semanticMode : Bool) (d : Descriptor) :
    meaningTerms semanticMode d.uncapped = (meaningTerms semanticMode d).map Text.uncapped := by
  have hsemantic : d.uncapped.isSemantic = d.isSemantic := by
    simp [Descriptor.isSemantic, Descriptor.uncapped]
  unfold meaningTerms
  rw [hsemantic]
  cases d.isSemantic <;> cases semanticMode <;> rfl

theorem isBlankText_uncapped (q : Text) :
    isBlankText (Text.uncapped q) = isBlankText q := by
  have hblank : isBlank ∘ Letter.toLower = isBlank := funext isBlank_toLower
  unfold isBlankText
  rw [toList_uncapped, List.all_map, hblank]

/-- A query goes the same way in small letters. -/
theorem route_uncapped (semanticMode : Bool) (q : Text) :
    route semanticMode (Text.uncapped q) = (route semanticMode q).uncapped := by
  unfold route
  rw [isBlankText_uncapped, words_uncapped, Query.parse_uncapped]
  simp only [Query.uncapped, List.isEmpty_map, List.length_map, meaningTerms_uncapped]
  split
  · rfl
  · split
    · rfl
    · cases h : meaningTerms semanticMode (Query.parse q).descriptor with
      | nil => rfl
      | cons term terms =>
        simp only [List.map_cons, Route.uncapped, uncapped_intercalate]

variable {α : Type} (note : α → Note)

theorem semanticSearch_uncapped (s : Searcher) (text : Text) (items : List α) :
    semanticSearch note s (Text.uncapped text) items = semanticSearch note s text items := by
  unfold semanticSearch
  rw [Engine.embed_uncapped]

/-- While nothing is remembered, the answer to a query is that to the query in small letters. -/
theorem search_uncapped {s : Searcher} (hempty : s.cache.entries = []) (clock : Clock) (q : Text)
    (items : List α) :
    (s.search note clock (Text.uncapped q) items).1 = (s.search note clock q items).1 := by
  have hroute := route_uncapped s.semanticMode q
  cases h : route s.semanticMode q with
  | everything =>
    rw [h] at hroute
    simp only [search, h, hroute, Route.uncapped]
  | nothing =>
    rw [h] at hroute
    simp only [search, h, hroute, Route.uncapped]
  | meaning text =>
    rw [h] at hroute
    simp only [search, h, hroute, Route.uncapped, semanticSearch_uncapped]
  | words d =>
    rw [h] at hroute
    rw [search_of_words hempty h, search_of_words hempty hroute,
      acceptedIds_congr (Descriptor.accepts_uncapped d clock.wall)]

/-- Of two queries that differ only in the case of plain letters, both find the same items in the
same order, and both lose as many invalid words. -/
theorem search_eq_of_same_letters {q q' : Text}
    (hletters : q.toList.map Letter.toLower = q'.toList.map Letter.toLower) {s : Searcher}
    (hempty : s.cache.entries = []) (clock : Clock) (items : List α) :
    (s.search note clock q items).1 = (s.search note clock q' items).1 ∧
      (Query.parse q).discarded.length = (Query.parse q').discarded.length := by
  have huncapped : Text.uncapped q = Text.uncapped q' := congrArg Text.ofList hletters
  have hdiscarded (q : Text) :
      (Query.parse (Text.uncapped q)).discarded.length = (Query.parse q).discarded.length := by
    rw [Query.parse_uncapped]
    exact List.length_map _
  constructor
  · rw [← search_uncapped note hempty, huncapped, search_uncapped note hempty]
  · rw [← hdiscarded q, huncapped, hdiscarded]

/-- Between letters the sigma of the tag is no last letter, and behind a letter that of the term is
one. -/
theorem search_eq_of_same_letters_sigma :
    let q : Text := "Is:FAV #OΣA OΣ progress:>1E1 Priority:X"
    let q' : Text := "iS:fav #oΣa oΣ PROGRESS:>1e1 pRIORITY:x"
    let t := Moment.ofDate .first
    let s := new (.new none)
    let n := { Note.plain "a" "Oσa" t with tags := ["oσA"], favorite := true, progress := 0.5 }
    let m := { n with id := "b", title := "Oς" }
    q.toList.map Letter.toLower = q'.toList.map Letter.toLower ∧ s.cache.entries = [] ∧
      (s.search id (.startingAt t) q [n, m]).1 = .ok [m] ∧
      (Query.parse q).discarded = [("Priority:X" : Text)] ∧
      (s.search id (.startingAt t) q [n, m]).1 = (s.search id (.startingAt t) q' [n, m]).1 ∧
      (Query.parse q).discarded.length = (Query.parse q').discarded.length := by
  intro q q' t s n m
  have hletters : q.toList.map Letter.toLower = q'.toList.map Letter.toLower := by decide +kernel
  exact ⟨hletters, rfl, by decide +kernel, by decide +kernel,
    search_eq_of_same_letters id hletters rfl _ _⟩

end Searcher

end Notebook
