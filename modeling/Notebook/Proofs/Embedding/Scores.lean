import Notebook.Embedding.Similarity
import Notebook.Proofs.Decimal.Order
import Notebook.Proofs.Basic
import Notebook.Proofs.Ranking

/-!
# Scores of some items

Every item is scored by itself.  Leaving items out therefore leaves the scores of the others and
their ranks as they are, unless one of those that are left out is the only reason why there are no
scores at all.
-/

namespace Notebook.Similarity

variable {α : Type} {query : Grid} {embedding : α → Option Grid} {items : List α}

/-! ### Items without a score -/

/-- An item that cannot be compared with the query. -/
def Clashes (query : Grid) (embedding : α → Option Grid) (a : α) : Prop :=
  ∃ g e, embedding a = some g ∧ score query g = .error e

theorem product_of_score_eq_error {g : Grid} {e : Incomparable} (h : score query g = .error e) :
    product query g = .error e := by
  unfold score at h
  simp only at h
  split at h
  · cases h
  · split at h
    · cases h
    · cases hp : product query g with
      | ok p =>
        rw [hp] at h
        cases h
      | error e' =>
        rw [hp] at h
        exact congrArg Except.error (Except.error.inj h)

/-- Why there is no score is told by the query alone. -/
theorem eq_of_score_eq_error {g g' : Grid} {e e' : Incomparable} (h : score query g = .error e)
    (h' : score query g' = .error e') : e = e' := by
  have hp := product_of_score_eq_error h
  have hp' := product_of_score_eq_error h'
  unfold product at hp hp'
  split at hp
  · next hshape =>
    rw [hshape] at hp'
    exact Except.error.inj (hp.symm.trans hp')
  · cases hp

theorem length_of_product_eq_error {g : Grid} {e : Incomparable} (h : product query g = .error e) :
    1 < query.shape.length := by
  unfold product at h
  split at h
  · next k j rest hreverse =>
    have hlength := congrArg List.length hreverse
    simp only [List.length_reverse, List.length_cons] at hlength
    omega
  · cases h

/-- Rows have scores. -/
theorem not_clashes_of_row {a : α} (h : ∀ g ∈ embedding a, g.shape.length ≤ 1) :
    ¬ Clashes query embedding a := by
  rintro ⟨g, e, hg, he⟩
  have hshape : query.shape = g.shape := by
    by_contra hne
    rw [score, if_pos hne] at he
    cases he
  have hlength := length_of_product_eq_error (product_of_score_eq_error he)
  have hrow := h g hg
  rw [hshape] at hlength
  omega

/-! ### Scores -/

theorem scores_cons_none {a : α} (ha : embedding a = none) :
    scores query embedding (a :: items) = scores query embedding items := by
  rw [scores, ha]

theorem scores_cons_some {a : α} {g : Grid} (ha : embedding a = some g) :
    scores query embedding (a :: items) = (score query g).bind fun x =>
      (scores query embedding items).map ((a, x) :: ·) := by
  rw [scores, ha]
  rfl

/-- The first item has no embedding or a score, and the others have their scores. -/
theorem scores_cons_eq_ok_iff {a : α} {ps : List (α × Float)} :
    scores query embedding (a :: items) = .ok ps ↔
      embedding a = none ∧ scores query embedding items = .ok ps ∨
        ∃ g x rest, embedding a = some g ∧ score query g = .ok x ∧
          scores query embedding items = .ok rest ∧ ps = (a, x) :: rest := by
  cases ha : embedding a with
  | none => simp [scores_cons_none ha]
  | some g =>
    simp only [scores_cons_some ha, except_bind_eq_ok_iff, except_map_eq_ok_iff, reduceCtorEq,
      false_and, false_or, Option.some.injEq]
    constructor
    · rintro ⟨x, hx, rest, hrest, rfl⟩
      exact ⟨g, x, rest, rfl, hx, hrest, rfl⟩
    · rintro ⟨g', x, rest, rfl, hx, hrest, rfl⟩
      exact ⟨x, hx, rest, hrest, rfl⟩

theorem fst_scores_sublist {ps : List (α × Float)} (h : scores query embedding items = .ok ps) :
    (ps.map Prod.fst).Sublist items := by
  induction items generalizing ps with
  | nil =>
    cases h
    exact List.Sublist.refl []
  | cons a items ih =>
    rcases scores_cons_eq_ok_iff.mp h with ⟨-, hrest⟩ | ⟨g, x, rest, -, -, hrest, rfl⟩
    · exact (ih hrest).cons a
    · exact (ih hrest).cons_cons a

/-- Every item has its score, whichever others there are. -/
theorem scores_filter {ps : List (α × Float)} (h : scores query embedding items = .ok ps)
    (p : α → Bool) :
    scores query embedding (items.filter p) = .ok (ps.filter fun x => p x.1) := by
  induction items generalizing ps with
  | nil =>
    cases h
    rfl
  | cons a items ih =>
    rw [List.filter_cons]
    rcases scores_cons_eq_ok_iff.mp h with ⟨ha, hrest⟩ | ⟨g, x, rest, ha, hx, hrest, rfl⟩
    · split
      · rw [scores_cons_none ha, ih hrest]
      · exact ih hrest
    · rw [List.filter_cons]
      split
      · exact scores_cons_eq_ok_iff.mpr (.inr ⟨g, x, _, ha, hx, ih hrest, rfl⟩)
      · exact ih hrest

theorem not_clashes_of_scores {ps : List (α × Float)}
    (h : scores query embedding items = .ok ps) : ∀ a ∈ items, ¬ Clashes query embedding a := by
  induction items generalizing ps with
  | nil => simp
  | cons a items ih =>
    rw [List.forall_mem_cons]
    rcases scores_cons_eq_ok_iff.mp h with ⟨ha, hrest⟩ | ⟨g, x, rest, ha, hx, hrest, -⟩
    · refine ⟨?_, ih hrest⟩
      rintro ⟨g, e, hg, -⟩
      rw [ha] at hg
      cases hg
    · refine ⟨?_, ih hrest⟩
      rintro ⟨g', e, hg, he⟩
      rw [ha] at hg
      cases hg
      rw [hx] at he
      cases he

theorem exists_of_scores_eq_error {e : Incomparable}
    (h : scores query embedding items = .error e) :
    ∃ a ∈ items, ∃ g, embedding a = some g ∧ score query g = .error e := by
  induction items with
  | nil => cases h
  | cons a items ih =>
    cases ha : embedding a with
    | none =>
      rw [scores_cons_none ha] at h
      obtain ⟨b, hb, hg⟩ := ih h
      exact ⟨b, List.mem_cons_of_mem a hb, hg⟩
    | some g =>
      rw [scores_cons_some ha] at h
      cases hx : score query g with
      | error e' =>
        rw [hx] at h
        cases h
        exact ⟨a, List.mem_cons_self, g, ha, hx⟩
      | ok x =>
        rw [hx] at h
        cases hrest : scores query embedding items with
        | error e' =>
          rw [hrest] at h
          cases h
          obtain ⟨b, hb, hg⟩ := ih hrest
          exact ⟨b, List.mem_cons_of_mem a hb, hg⟩
        | ok rest =>
          rw [hrest] at h
          cases h

/-! ### Ranks -/

variable {threshold : Float} {inclusive : Bool}

theorem mem_of_mem_rank {ps : List (α × Float)}
    (h : rank query embedding threshold inclusive items = .ok ps) {p : α × Float} (hp : p ∈ ps) :
    p.1 ∈ items := by
  obtain ⟨xs, hs, rfl⟩ := except_map_eq_ok_iff.mp h
  have hscored := (List.mem_filter.mp (List.mem_mergeSort.mp hp)).1
  exact (fst_scores_sublist hs).mem (List.mem_map_of_mem hscored)

/-- A score that is enough is one that can be compared. -/
theorem isOrdered_of_reaches {x : Float} (h : reaches threshold inclusive x = true) :
    Decimal.IsOrdered x := by
  unfold reaches at h
  rw [Bool.or_eq_true, Bool.and_eq_true, decide_eq_true_eq] at h
  rcases h with h | ⟨-, h⟩
  · exact (Decimal.isOrdered_of_lt h).2
  · exact Decimal.isOrdered_of_beq h

/-- Is the second score at most the first one?  Scores are told by their places here. -/
def notBelow (p q : α × Float) : Bool :=
  decide (Decimal.place q.2.toModel.unpack ≤ Decimal.place p.2.toModel.unpack)

theorem notBelow_trans (p q r : α × Float) (hpq : notBelow p q = true)
    (hqr : notBelow q r = true) : notBelow p r = true :=
  decide_eq_true (le_trans (of_decide_eq_true hqr) (of_decide_eq_true hpq))

theorem notBelow_total (p q : α × Float) : (notBelow p q || notBelow q p) = true := by
  unfold notBelow
  rw [Bool.or_eq_true, decide_eq_true_eq, decide_eq_true_eq]
  exact le_total _ _

/-- Scores that are enough stand in one line. -/
theorem not_lt_eq_notBelow {ps : List (α × Float)} :
    ∀ p ∈ ps.filter (fun p => reaches threshold inclusive p.2),
      ∀ q ∈ ps.filter (fun p => reaches threshold inclusive p.2),
        (!decide (p.2 < q.2)) = notBelow p q := by
  intro p hp q hq
  have hlt := Decimal.lt_iff_place (isOrdered_of_reaches (List.mem_filter.mp hp).2)
    (isOrdered_of_reaches (List.mem_filter.mp hq).2)
  rw [← decide_not]
  exact decide_eq_decide.mpr ((not_congr hlt).trans not_lt)

theorem filter_rankBy_reaches (ps : List (α × Float)) (p : α × Float → Bool) :
    (rankBy (fun x y : Float => y < x) Prod.snd
        (ps.filter fun q => reaches threshold inclusive q.2)).filter p =
      rankBy (fun x y : Float => y < x) Prod.snd
        ((ps.filter fun q => reaches threshold inclusive q.2).filter p) :=
  filter_rankBy notBelow_trans notBelow_total not_lt_eq_notBelow p

/-- The items that are not left out are ranked as they are among all. -/
theorem rank_filter {ps : List (α × Float)}
    (h : rank query embedding threshold inclusive items = .ok ps) (p : α → Bool) :
    rank query embedding threshold inclusive (items.filter p) =
      .ok (ps.filter fun x => p x.1) := by
  obtain ⟨xs, hs, rfl⟩ := except_map_eq_ok_iff.mp h
  rw [rank, scores_filter hs p, filter_rankBy_reaches]
  simp only [Except.map, List.filter_filter, Bool.and_comm]

theorem exists_of_rank_eq_error {e : Incomparable}
    (h : rank query embedding threshold inclusive items = .error e) :
    ∃ a ∈ items, ∃ g, embedding a = some g ∧ score query g = .error e := by
  refine exists_of_scores_eq_error ?_
  unfold rank at h
  cases hs : scores query embedding items with
  | ok ps =>
    rw [hs] at h
    cases h
  | error e' =>
    rw [hs] at h
    exact congrArg Except.error (Except.error.inj h)

theorem not_clashes_of_rank {ps : List (α × Float)}
    (h : rank query embedding threshold inclusive items = .ok ps) :
    ∀ a ∈ items, ¬ Clashes query embedding a := by
  obtain ⟨xs, hs, -⟩ := except_map_eq_ok_iff.mp h
  exact not_clashes_of_scores hs

/-- All items that clash are among those that are left out, and there are some. -/
def Spoiled (query : Grid) (embedding : α → Option Grid) (p : α → Bool) (items : List α) : Prop :=
  (∃ a ∈ items, Clashes query embedding a) ∧
    ∀ a ∈ items, Clashes query embedding a → p a = false

/-- Leaving items out before is leaving them out after, unless the ranking is spoiled by them. -/
theorem rank_filter_of_not_spoiled {p : α → Bool}
    (h : ¬ Spoiled query embedding p items) :
    rank query embedding threshold inclusive (items.filter p) =
      (rank query embedding threshold inclusive items).map (·.filter fun x => p x.1) := by
  cases hall : rank query embedding threshold inclusive items with
  | ok ps => exact rank_filter hall p
  | error e =>
    -- some item clashes that is not left out, so both rankings fail, and for the same reason
    obtain ⟨a, ha, g, hg, he⟩ := exists_of_rank_eq_error hall
    obtain ⟨b, hb, ⟨hclash, hpb⟩⟩ : ∃ b ∈ items, Clashes query embedding b ∧ p b = true := by
      by_contra hnone
      refine h ⟨⟨a, ha, g, e, hg, he⟩, fun b hb hclash => ?_⟩
      exact Bool.eq_false_iff.mpr fun hpb => hnone ⟨b, hb, hclash, hpb⟩
    cases hsome : rank query embedding threshold inclusive (items.filter p) with
    | ok ps => exact absurd hclash (not_clashes_of_rank hsome b (List.mem_filter.mpr ⟨hb, hpb⟩))
    | error e' =>
      obtain ⟨a', -, g', -, he'⟩ := exists_of_rank_eq_error hsome
      exact congrArg Except.error (eq_of_score_eq_error he' he)

/-- A spoiled ranking fails, and it does not fail without the items that are left out. -/
theorem exists_rank_of_spoiled (threshold : Float) (inclusive : Bool) {p : α → Bool}
    (h : Spoiled query embedding p items) :
    (∃ e, rank query embedding threshold inclusive items = .error e) ∧
      ∃ ps, rank query embedding threshold inclusive (items.filter p) = .ok ps := by
  obtain ⟨⟨a, ha, hclash⟩, hout⟩ := h
  constructor
  · cases hall : rank query embedding threshold inclusive items with
    | ok ps => exact absurd hclash (not_clashes_of_rank hall a ha)
    | error e => exact ⟨e, rfl⟩
  · cases hsome : rank query embedding threshold inclusive (items.filter p) with
    | ok ps => exact ⟨ps, rfl⟩
    | error e =>
      obtain ⟨b, hb, g, hg, he⟩ := exists_of_rank_eq_error hsome
      obtain ⟨hb, hpb⟩ := List.mem_filter.mp hb
      rw [hout b hb ⟨g, e, hg, he⟩] at hpb
      cases hpb

end Notebook.Similarity
