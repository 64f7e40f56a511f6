import Notebook.Proofs.Decimal.Bits
import Notebook.Note.Record
import Notebook.Proofs.Query.Asked
import Notebook.Proofs.Search.Route

/-!
# Queries of the same words

What is found word by word depends on which words a query is made of, but neither on their order
nor on how often they stand there.  Only where words give different values for one part of the
query does it matter which of them is the last.
-/

namespace Notebook

namespace Query

/-- Tokens that give a single value give the same one.  Zero with a sign is zero. -/
structure Agreeing (ts : List Token) : Prop where
  priority : ∀ p p', .priority p ∈ ts → .priority p' ∈ ts → p = p'
  progress : ∀ x x', .progress x ∈ ts → .progress x' ∈ ts → x = x' ∨ (x == x') = true
  due : ∀ a a', .due a ∈ ts → .due a' ∈ ts → a = a'

theorem asks_progress_congr {x x' : Float} (h : x = x' ∨ (x == x') = true) (now : Moment)
    (n : Note) : (Token.progress x).asks now n = (Token.progress x').asks now n := by
  rcases h with rfl | h
  · rfl
  · simp only [Token.asks, Decimal.lt_congr_of_beq h]

variable {ts ts' : List Token} {now : Moment} {n : Note}

theorem exists_getLast? {β : Type} {given : Token → Option β} {t : Token} {b : β} (ht : t ∈ ts)
    (hb : given t = some b) : ∃ b', (ts.filterMap given).getLast? = some b' := by
  have hmem : b ∈ ts.filterMap given := List.mem_filterMap.mpr ⟨t, ht, hb⟩
  exact ⟨_, List.getLast?_eq_some_getLast (List.ne_nil_of_mem hmem)⟩

/-- Where single values agree, it is all the same whether one of them counts or all of them. -/
theorem forall_counts_iff (h : Agreeing ts) :
    (∀ t, (∀ tag, t ≠ .tag tag) → Counts ts t → t.asks now n = true) ↔
      ∀ t ∈ ts, (∀ tag, t ≠ .tag tag) → t.asks now n = true := by
  constructor
  · intro hall t ht htag
    cases t with
    | priority p =>
      obtain ⟨p', hp'⟩ := exists_getLast? ht ((Token.priority?_eq_some _ p).mpr rfl)
      have hcounts : Counts ts (.priority p') := hp'
      rw [h.priority p p' ht hcounts.mem]
      exact hall _ nofun hcounts
    | progress x =>
      obtain ⟨x', hx'⟩ := exists_getLast? ht ((Token.progress?_eq_some _ x).mpr rfl)
      have hcounts : Counts ts (.progress x') := hx'
      rw [asks_progress_congr (h.progress x x' ht hcounts.mem)]
      exact hall _ nofun hcounts
    | due a =>
      obtain ⟨a', ha'⟩ := exists_getLast? ht ((Token.due?_eq_some _ a).mpr rfl)
      have hcounts : Counts ts (.due a') := ha'
      rw [h.due a a' ht hcounts.mem]
      exact hall _ nofun hcounts
    | tag | semantic | favorite | tasks | overdue | anyTag | free | invalid => exact hall _ htag ht
  · exact fun hall t htag ht => hall t ht.mem htag

theorem acceptsTags_congr (hts : ∀ t, t ∈ ts ↔ t ∈ ts') (n : Note) :
    (ofTokens ts).descriptor.acceptsTags n = (ofTokens ts').descriptor.acceptsTags n := by
  rw [Bool.eq_iff_iff]
  by_cases hany : .anyTag ∈ ts
  · rw [acceptsTags_iff_of_any hany, acceptsTags_iff_of_any ((hts _).mp hany)]
    simp only [hts]
  · rw [acceptsTags_iff_of_all hany, acceptsTags_iff_of_all fun h => hany ((hts _).mpr h)]
    simp only [hts]

/-- Lists of the same tokens ask for the same, if their single values agree. -/
theorem accepts_congr (hts : ∀ t, t ∈ ts ↔ t ∈ ts') (h : Agreeing ts) (now : Moment) (n : Note) :
    (ofTokens ts).descriptor.accepts now n = (ofTokens ts').descriptor.accepts now n := by
  have h' : Agreeing ts' := by
    obtain ⟨hpriority, hprogress, hdue⟩ := h
    simp only [hts] at hpriority hprogress hdue
    exact ⟨hpriority, hprogress, hdue⟩
  rw [Bool.eq_iff_iff, accepts_ofTokens_iff, accepts_ofTokens_iff, forall_counts_iff h,
    forall_counts_iff h', acceptsTags_congr hts]
  simp only [hts]

theorem mem_tokens_congr {q q' : Text} (h : ∀ w, w ∈ Text.words q ↔ w ∈ Text.words q')
    (t : Token) : t ∈ tokens q ↔ t ∈ tokens q' := by
  simp only [tokens, List.mem_map, h]

end Query

namespace Searcher

/-- Without a semantic term, and where the searcher does not ask for meaning, words are looked
for. -/
theorem routeOf_words {ts : List Token} (h : ∀ term, .semantic term ∉ ts) :
    routeOf false (Query.ofTokens ts).descriptor = .words (Query.ofTokens ts).descriptor := by
  have hnone : (Query.ofTokens ts).descriptor.semanticTerms = [] := by
    refine List.eq_nil_iff_forall_not_mem.mpr fun term hterm => h term ?_
    exact (Query.mem_semanticTerms term).mp hterm
  simp [routeOf, meaningTerms, Descriptor.isSemantic, hnone]

variable {α : Type} (note : α → Note)

/-- Two queries of the same words, none of which asks for meaning, find the same notes in the same
order, if single values agree and nothing is remembered. -/
theorem search_eq_of_same_words {q q' : Text}
    (hwords : ∀ w, w ∈ Text.words q ↔ w ∈ Text.words q')
    (hsemantic : ∀ term, .semantic term ∉ Query.tokens q) (h : Query.Agreeing (Query.tokens q))
    {s : Searcher} (hempty : s.cache.entries = []) (hmode : s.semanticMode = false)
    (clock : Clock) (items : List α) :
    ∃ found, (s.search note clock q items).1 = .ok found ∧
      (s.search note clock q' items).1 = .ok found := by
  have htokens := Query.mem_tokens_congr hwords
  by_cases hblank : Text.words q = []
  · have hblank' : Text.words q' = [] := by
      simpa [List.eq_nil_iff_forall_not_mem, hwords] using hblank
    exact ⟨_, by rw [search, route_of_blank hblank], by rw [search, route_of_blank hblank']⟩
  have hblank' : Text.words q' ≠ [] := by
    simpa [List.eq_nil_iff_forall_not_mem, hwords] using hblank
  by_cases hinvalid : ∀ t ∈ Query.tokens q, t.isInvalid = true
  · have hinvalid' : ∀ t ∈ Query.tokens q', t.isInvalid = true := by
      simpa only [htokens] using hinvalid
    exact ⟨_, by rw [search, route_of_invalid hblank hinvalid],
      by rw [search, route_of_invalid hblank' hinvalid']⟩
  · have hinvalid' : ¬ ∀ t ∈ Query.tokens q', t.isInvalid = true := by
      simpa only [htokens] using hinvalid
    have hsemantic' : ∀ term, .semantic term ∉ Query.tokens q' := by
      simpa only [htokens] using hsemantic
    have hroute : route s.semanticMode q = .words (Query.parse q).descriptor := by
      rw [hmode, route_of_valid hblank hinvalid]
      exact routeOf_words hsemantic
    have hroute' : route s.semanticMode q' = .words (Query.parse q').descriptor := by
      rw [hmode, route_of_valid hblank' hinvalid']
      exact routeOf_words hsemantic'
    have haccepts : acceptedIds note (Query.parse q).descriptor clock.wall items =
        acceptedIds note (Query.parse q').descriptor clock.wall items :=
      acceptedIds_congr (Query.accepts_congr htokens h clock.wall) items
    refine ⟨_, search_of_words hempty hroute, ?_⟩
    rw [search_of_words hempty hroute']
    exact congrArg (fun ids => Except.ok (ids.filterMap (lastWithId? note items))) haccepts.symm

/-- Zero is written with a sign and without, one of two tags is enough, and words are repeated. -/
theorem search_eq_of_same_words_repeated :
    let q : Text := "milk progress:>0 #Tea progress:>-0 tag:any #hot"
    let q' := "#hot tag:any #hot progress:>-0 milk #Tea milk progress:>0"
    let t := Moment.ofDate .first
    let s := new (.new none)
    let n := { Note.plain "a" "Oat milk" t with tags := ["Hot"] }
    let items := [n, Note.plain "b" "Milk" t]
    (∀ w, w ∈ Text.words q ↔ w ∈ Text.words q') ∧ (∀ term, .semantic term ∉ Query.tokens q) ∧
      Query.Agreeing (Query.tokens q) ∧ s.cache.entries = [] ∧ s.semanticMode = false ∧
      (s.search id (.startingAt t) q items).1 = .ok [n] ∧
      ∃ found, (s.search id (.startingAt t) q items).1 = .ok found ∧
        (s.search id (.startingAt t) q' items).1 = .ok found := by
  intro q q' t s n items
  have htokens : Query.tokens q =
      [.free "milk", .progress 0.0, .tag "tea", .progress (-0.0), .anyTag, .tag "hot"] := by
    decide +kernel
  have hwords : Text.words q =
      [("milk" : Text), "progress:>0", "#Tea", "progress:>-0", "tag:any", "#hot"] := by
    decide +kernel
  have hwords' : Text.words q' =
      [("#hot" : Text), "tag:any", "#hot", "progress:>-0", "milk", "#Tea", "milk",
        "progress:>0"] := by
    decide +kernel
  have hsame : ∀ w, w ∈ Text.words q ↔ w ∈ Text.words q' := by
    have hsub : Text.words q ⊆ Text.words q' := by
      rw [hwords, hwords']
      decide
    have hsup : Text.words q' ⊆ Text.words q := by
      rw [hwords, hwords']
      decide
    exact fun w => ⟨fun h => hsub h, fun h => hsup h⟩
  have hsemantic : ∀ term, .semantic term ∉ Query.tokens q := by simp [htokens]
  have hagreeing : Query.Agreeing (Query.tokens q) := by
    rw [htokens]
    refine ⟨by simp, fun x x' hx hx' => ?_, by simp⟩
    simp only [List.mem_cons, Token.progress.injEq, reduceCtorEq, List.not_mem_nil, or_false,
      false_or] at hx hx'
    rcases hx with rfl | rfl <;> rcases hx' with rfl | rfl <;> exact .inr (by decide +kernel)
  exact ⟨hsame, hsemantic, hagreeing, rfl, rfl, by decide +kernel,
    search_eq_of_same_words id hsame hsemantic hagreeing rfl rfl _ _⟩

end Searcher

end Notebook
