import Notebook.Proofs.Embedding.Scores
import Notebook.Note.Record

/-!
# Rankings

A row can be compared with every embedding, so items are always ranked against a row.  Every place
of the list whose item has a score that is enough is ranked once.  The scores lie between -1 and 1
and fall along the ranking; places with equal scores stay in order.
-/

namespace Notebook.Similarity

variable {α : Type} {query : Grid} {embedding : α → Option Grid} {items : List α}

/-! ### Scores lie between -1 and 1 -/

theorem clamp_bounds (x : Float) : -1.0 ≤ clamp x ∧ clamp x ≤ 1.0 := by
  unfold clamp
  by_cases hx : x < 1.0
  · rw [if_pos hx]
    by_cases hlow : -1.0 < x
    · rw [if_pos hlow]
      exact ⟨Decimal.le_iff_lt_or_beq.mpr (.inl hlow), Decimal.le_iff_lt_or_beq.mpr (.inl hx)⟩
    · rw [if_neg hlow]
      decide +kernel
  · -- here `x` is 1 or more, or no number
    rw [if_neg hx]
    decide +kernel

theorem score_bounds {g : Grid} {x : Float} (h : score query g = .ok x) :
    -1.0 ≤ x ∧ x ≤ 1.0 ∧ x.isNaN = false := by
  have hbounds : -1.0 ≤ x ∧ x ≤ 1.0 := by
    unfold score at h
    simp only at h
    split at h
    · cases h
      decide +kernel
    · split at h
      · cases h
        decide +kernel
      · obtain ⟨p, -, rfl⟩ := except_map_eq_ok_iff.mp h
        exact clamp_bounds _
  refine ⟨hbounds.1, hbounds.2, Decimal.isOrdered_iff.mp ?_⟩
  rcases Decimal.le_iff_lt_or_beq.mp hbounds.2 with hlt | heq
  · exact (Decimal.isOrdered_of_lt hlt).1
  · exact Decimal.isOrdered_of_beq heq

/-! ### Rows can be compared with everything -/

theorem exists_score_of_row (hquery : query.shape.length ≤ 1) (g : Grid) :
    ∃ x, score query g = .ok x := by
  cases h : score query g with
  | ok x => exact ⟨x, rfl⟩
  | error e =>
    have hlength := length_of_product_eq_error (product_of_score_eq_error h)
    omega

theorem exists_rank_of_row (hquery : query.shape.length ≤ 1) (embedding : α → Option Grid)
    (threshold : Float) (inclusive : Bool) (items : List α) :
    ∃ ps, rank query embedding threshold inclusive items = .ok ps := by
  cases h : rank query embedding threshold inclusive items with
  | ok ps => exact ⟨ps, rfl⟩
  | error e =>
    obtain ⟨a, -, g, -, hg⟩ := exists_of_rank_eq_error h
    obtain ⟨x, hx⟩ := exists_score_of_row hquery g
    rw [hx] at hg
    cases hg

/-! ### What is ranked -/

theorem mem_scores_iff {ps : List (α × Float)} (h : scores query embedding items = .ok ps)
    {a : α} {x : Float} :
    (a, x) ∈ ps ↔ a ∈ items ∧ ∃ g, embedding a = some g ∧ score query g = .ok x := by
  induction items generalizing ps with
  | nil =>
    cases h
    simp
  | cons b items ih =>
    rw [List.mem_cons, or_and_right]
    rcases scores_cons_eq_ok_iff.mp h with ⟨hb, hrest⟩ | ⟨g, y, rest, hb, hy, hrest, rfl⟩
    · rw [ih hrest]
      refine ⟨.inr, fun ha => ha.resolve_left ?_⟩
      rintro ⟨rfl, g, hg, -⟩
      rw [hb] at hg
      cases hg
    · rw [List.mem_cons, ih hrest, Prod.mk.injEq]
      refine or_congr_left ⟨?_, ?_⟩
      · rintro ⟨rfl, rfl⟩
        exact ⟨rfl, g, hb, hy⟩
      · rintro ⟨rfl, g', hg', hx⟩
        rw [hb] at hg'
        cases hg'
        rw [hy] at hx
        cases hx
        exact ⟨rfl, rfl⟩

variable {threshold : Float} {inclusive : Bool} {ps : List (α × Float)}

theorem mem_rank_iff (h : rank query embedding threshold inclusive items = .ok ps) {a : α}
    {x : Float} :
    (a, x) ∈ ps ↔ (a ∈ items ∧ ∃ g, embedding a = some g ∧ score query g = .ok x) ∧
      reaches threshold inclusive x = true := by
  obtain ⟨xs, hscores, rfl⟩ := except_map_eq_ok_iff.mp h
  unfold rankBy
  rw [List.mem_mergeSort, List.mem_filter, mem_scores_iff hscores]

/-- No item is ranked twice. -/
theorem nodup_rank (h : rank query embedding threshold inclusive items = .ok ps) {β : Type}
    {f : α → β} (hitems : (items.map f).Nodup) : (ps.map fun p => f p.1).Nodup := by
  obtain ⟨xs, hscores, rfl⟩ := except_map_eq_ok_iff.mp h
  have hps : (xs.map fun p => f p.1).Nodup := by
    have hfst := (fst_scores_sublist hscores).map f
    rw [List.map_map] at hfst
    exact hitems.sublist hfst
  exact ((rankBy_perm _ _ _).map _).nodup_iff.mpr (hps.sublist (List.filter_sublist.map _))

/-- Higher scores come first.  What holds along the items holds along equal scores. -/
theorem pairwise_rank (h : rank query embedding threshold inclusive items = .ok ps)
    {R : α → α → Prop} (hitems : items.Pairwise R) :
    ps.Pairwise fun p q => q.2 < p.2 ∨ (q.2 == p.2) = true ∧ R p.1 q.1 := by
  obtain ⟨xs, hscores, rfl⟩ := except_map_eq_ok_iff.mp h
  have hxs : xs.Pairwise fun p q => R p.1 q.1 :=
    List.pairwise_map.mp (hitems.sublist (fst_scores_sublist hscores))
  rw [rankBy_eq_mergeSort not_lt_eq_notBelow]
  refine (pairwise_mergeSort_stable notBelow_trans notBelow_total
    (hxs.sublist List.filter_sublist)).imp_of_mem fun {p q} hp hq hpq => ?_
  have hpx := isOrdered_of_reaches (List.mem_filter.mp (List.mem_mergeSort.mp hp)).2
  have hqx := isOrdered_of_reaches (List.mem_filter.mp (List.mem_mergeSort.mp hq)).2
  obtain ⟨hle, hequal⟩ := hpq
  rcases lt_or_eq_of_le (of_decide_eq_true hle) with hlt | heq
  · exact .inl ((Decimal.lt_iff_place hqx hpx).mpr hlt)
  · exact .inr ⟨(Decimal.beq_iff_place hqx hpx).mpr heq, hequal (decide_eq_true heq.ge)⟩

/-! ### Places -/

section Map

variable {β : Type} (f : β → α)

/-- Items may be told apart by more than their embeddings: their scores are the same. -/
theorem scores_map (query : Grid) (embedding : α → Option Grid) (bs : List β) :
    scores query embedding (bs.map f) =
      (scores query (embedding ∘ f) bs).map (List.map (Prod.map f id)) := by
  induction bs with
  | nil => rfl
  | cons b bs ih =>
    rw [List.map_cons]
    cases hb : embedding (f b) with
    | none => rw [scores_cons_none hb, scores_cons_none (a := b) hb, ih]
    | some g =>
      rw [scores_cons_some hb, scores_cons_some (a := b) hb, ih]
      cases score query g with
      | error e => rfl
      | ok x => cases scores query (embedding ∘ f) bs <;> rfl

theorem rank_map (query : Grid) (embedding : α → Option Grid) (threshold : Float)
    (inclusive : Bool) (bs : List β) :
    rank query embedding threshold inclusive (bs.map f) =
      (rank query (embedding ∘ f) threshold inclusive bs).map (List.map (Prod.map f id)) := by
  unfold rank
  rw [scores_map]
  cases scores query (embedding ∘ f) bs with
  | error e => rfl
  | ok ps =>
    simp only [Except.map, List.filter_map, rankBy_map]
    rfl

end Map

/-- The items of a list that are ranked, each with its place in the list and its score. -/
structure Ranked (query : Grid) (embedding : α → Option Grid) (threshold : Float)
    (inclusive : Bool) (items : List α) (ranked : List ((α × ℕ) × Float)) : Prop where
  /-- The scores that are enough are there, and no others. -/
  mem_iff : ∀ a i x, ((a, i), x) ∈ ranked ↔
    items[i]? = some a ∧ (∃ g, embedding a = some g ∧ score query g = .ok x) ∧
      (threshold < x ∨ inclusive = true ∧ (x == threshold) = true)
  /-- No place is there twice. -/
  nodup : (ranked.map fun p => p.1.2).Nodup
  /-- Higher scores come first, and of two equal ones that of the earlier place. -/
  sorted : ranked.Pairwise fun p q => q.2 < p.2 ∨ (q.2 == p.2) = true ∧ p.1.2 < q.1.2
  bounded : ∀ p ∈ ranked, -1.0 ≤ p.2 ∧ p.2 ≤ 1.0 ∧ p.2.isNaN = false

/-- Whatever is ranked against a row, each place has its turn once. -/
theorem rank_eq_ranked (hquery : query.shape.length ≤ 1) (embedding : α → Option Grid)
    (threshold : Float) (inclusive : Bool) (items : List α) :
    ∃ ranked, Ranked query embedding threshold inclusive items ranked ∧
      rank query embedding threshold inclusive items =
        .ok (ranked.map fun p => (p.1.1, p.2)) := by
  obtain ⟨ranked, hranked⟩ := exists_rank_of_row hquery (embedding ∘ Prod.fst) threshold inclusive
    items.zipIdx
  have hsorted := pairwise_rank hranked (pairwise_zipIdx items)
  have hplaces : (items.zipIdx.map Prod.snd).Nodup := by
    rw [List.zipIdx_map_snd]
    exact List.nodup_range' 1
  have hmem : ∀ a i x, ((a, i), x) ∈ ranked ↔
      items[i]? = some a ∧ (∃ g, embedding a = some g ∧ score query g = .ok x) ∧
        (threshold < x ∨ inclusive = true ∧ (x == threshold) = true) := by
    intro a i x
    rw [mem_rank_iff hranked, List.mk_mem_zipIdx_iff_getElem?, and_assoc]
    simp [reaches]
  refine ⟨ranked, ⟨hmem, nodup_rank hranked hplaces, hsorted, ?_⟩, ?_⟩
  · rintro ⟨⟨a, i⟩, x⟩ hp
    obtain ⟨-, ⟨g, -, hx⟩, -⟩ := (hmem a i x).mp hp
    exact score_bounds hx
  · have hitems : items.zipIdx.map Prod.fst = items := List.zipIdx_map_fst 0 items
    conv_lhs => rw [← hitems]
    rw [rank_map, hranked]
    rfl

/-- One note is there twice, and its score is the threshold; another has no embedding. -/
theorem rank_eq_ranked_repeated :
    let t := Moment.ofDate .first
    let query := Grid.ofList [3.0, 4.0]
    let next := { Note.plain "a" "Oolong" t with embedding := some (.ofList [4.0, 3.0]) }
    let near := { Note.plain "b" "Assam" t with embedding := some (.ofList [6.0, 8.0]) }
    let far := { Note.plain "c" "Milk" t with embedding := some (.ofList [-3.0, -4.0]) }
    let items := [next, .plain "d" "Tea" t, near, far, next]
    query.shape.length ≤ 1 ∧
      ∃ ranked, Ranked query Note.embedding 0.96 true items ranked ∧
        rank query Note.embedding 0.96 true items = .ok (ranked.map fun p => (p.1.1, p.2)) ∧
        ((near, 2), 1.0) ∈ ranked ∧ ((next, 0), 0.96) ∈ ranked ∧ ((next, 4), 0.96) ∈ ranked := by
  intro t query next near far items
  have hquery : query.shape.length ≤ 1 := by decide
  obtain ⟨ranked, hranked, hrank⟩ := rank_eq_ranked hquery Note.embedding 0.96 true items
  have hnear : score query (.ofList [6.0, 8.0]) = .ok 1.0 := by decide +kernel
  have hnext : score query (.ofList [4.0, 3.0]) = .ok 0.96 := by decide +kernel
  refine ⟨hquery, ranked, hranked, hrank, ?_, ?_, ?_⟩
  · exact (hranked.mem_iff near 2 1.0).mpr ⟨rfl, ⟨_, rfl, hnear⟩, .inl (by decide +kernel)⟩
  · exact (hranked.mem_iff next 0 0.96).mpr ⟨rfl, ⟨_, rfl, hnext⟩, .inr ⟨rfl, by decide +kernel⟩⟩
  · exact (hranked.mem_iff next 4 0.96).mpr ⟨rfl, ⟨_, rfl, hnext⟩, .inr ⟨rfl, by decide +kernel⟩⟩

end Notebook.Similarity
