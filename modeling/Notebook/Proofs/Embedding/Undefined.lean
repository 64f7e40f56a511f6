import Notebook.Proofs.Decimal.Undefined
import Notebook.Proofs.Embedding.Ranked

/-!
# Embeddings with entries that are no numbers

One entry that is no number leaves an embedding without a length.  Its cosine is no number then
either, and counts as 1: such an embedding ranks above all others for every query of its shape that
is not zero.
-/

namespace Notebook

/-- One of the entries is no number. -/
def Grid.HasGap (g : Grid) : Prop := ∃ x ∈ g.entries, x.isNaN = true

namespace Similarity

open Decimal

variable {α : Type} {query g : Grid} {threshold : Float} {inclusive : Bool}

theorem isNaN_dot_self {xs : List Float} (h : ∃ x ∈ xs, x.isNaN = true) :
    (dot xs xs).isNaN = true := by
  obtain ⟨x, hx, hnan⟩ := h
  rw [dot, List.zipWith_self]
  exact isNaN_foldl_add (.inr ⟨x * x, List.mem_map.mpr ⟨x, hx, rfl⟩, isNaN_mul_right x hnan⟩)

theorem isNaN_norm (h : g.HasGap) : (norm g.entries).isNaN = true := isNaN_sqrt (isNaN_dot_self h)

theorem clamp_of_isNaN {x : Float} (h : x.isNaN = true) : clamp x = 1.0 := by
  have hx : ¬ x < 1.0 := by
    intro hlt
    have hnumber := isOrdered_iff.mp (isOrdered_of_lt hlt).1
    rw [h] at hnumber
    cases hnumber
  rw [clamp, if_neg hx]
  decide +kernel

theorem exists_product_of_row (hquery : query.shape.length ≤ 1) (g : Grid) :
    ∃ p, product query g = .ok p := by
  cases h : product query g with
  | ok p => exact ⟨p, rfl⟩
  | error e =>
    have hlength := length_of_product_eq_error h
    omega

/-- The query is compared with the grid: they have one shape, and the query is not zero. -/
def Meets (query g : Grid) : Prop := query.shape = g.shape ∧ (norm query.entries == 0.0) = false

/-- With an entry that is no number, the score is either full or that of grids that are not
compared. -/
theorem score_of_hasGap (hquery : query.shape.length ≤ 1) (hg : g.HasGap) :
    Meets query g ∧ score query g = .ok 1.0 ∨ ¬ Meets query g ∧ score query g = .ok 0.0 := by
  have hnorm := isNaN_norm hg
  have hlength : (norm g.entries == 0.0) = false := by
    rw [← Bool.not_eq_true]
    intro hzero
    have hnumber := isOrdered_iff.mp (isOrdered_of_beq hzero)
    rw [hnorm] at hnumber
    cases hnumber
  unfold score Meets
  by_cases hshape : query.shape = g.shape
  · cases hzero : norm query.entries == 0.0 with
    | true => simp [hshape, hzero]
    | false =>
      obtain ⟨p, hp⟩ := exists_product_of_row hquery g
      have hclamp : clamp (p / (norm query.entries * norm g.entries)) = 1.0 :=
        clamp_of_isNaN (isNaN_div_right p (isNaN_mul_right _ hnorm))
      simp [hshape, hzero, hlength, hp, Except.map, hclamp]
  · simp [hshape]

/-- An embedding with an entry that is no number is kept just if the query is compared with it and
a full score is enough, or if the score of what is not compared is itself the threshold. -/
theorem mem_rank_of_hasGap_iff (hquery : query.shape.length ≤ 1) (hthreshold : 0.0 ≤ threshold)
    (inclusive : Bool) (embedding : α → Option Grid) (items : List α) :
    ∃ ranked, rank query embedding threshold inclusive items = .ok ranked ∧
      ∀ a ∈ items, ∀ g, embedding a = some g → g.HasGap →
        ((∃ x, (a, x) ∈ ranked) ↔
          Meets query g ∧ (threshold < 1.0 ∨ inclusive = true ∧ (1.0 == threshold) = true) ∨
          ¬ Meets query g ∧ inclusive = true ∧ (0.0 == threshold) = true) := by
  obtain ⟨ranked, hranked⟩ := exists_rank_of_row hquery embedding threshold inclusive items
  refine ⟨ranked, hranked, fun a ha g hg hgap => ?_⟩
  have hkept : (∃ x, (a, x) ∈ ranked) ↔
      ∃ x, score query g = .ok x ∧ reaches threshold inclusive x = true := by
    simp [mem_rank_iff hranked, ha, hg]
  have hbelow : ¬ threshold < 0.0 :=
    (not_lt_iff_le (isOrdered_of_le hthreshold).2 (isOrdered_of_le hthreshold).1).mpr hthreshold
  rw [hkept]
  rcases score_of_hasGap hquery hgap with ⟨hmeets, hscore⟩ | ⟨hmeets, hscore⟩
  · simp [hscore, hmeets, reaches]
  · simp [hscore, hmeets, reaches, hbelow]

/-- The gap does no harm where the embedding has another shape than the query. -/
theorem mem_rank_of_hasGap_two_shapes :
    let t := Moment.ofDate .first
    let query := Grid.ofList [3.0, 4.0]
    let near := { Note.plain "a" "Oolong" t with embedding := some (.ofList [4.0, nan]) }
    let far := { Note.plain "b" "Assam" t with embedding := some (.ofList [nan]) }
    query.shape.length ≤ 1 ∧ 0.0 ≤ (0.5 : Float) ∧ (Grid.ofList [4.0, nan]).HasGap ∧
      (Grid.ofList [nan]).HasGap ∧
      ∃ ranked, rank query Note.embedding 0.5 false [far, near] = .ok ranked ∧
        (∃ x, (near, x) ∈ ranked) ∧ ¬ ∃ x, (far, x) ∈ ranked := by
  intro t query near far
  have hquery : query.shape.length ≤ 1 := by decide
  have hthreshold : 0.0 ≤ (0.5 : Float) := by decide +kernel
  have hnear : (Grid.ofList [4.0, nan]).HasGap := ⟨nan, by simp, by decide +kernel⟩
  have hfar : (Grid.ofList [nan]).HasGap := ⟨nan, by simp, by decide +kernel⟩
  have hmeets : Meets query (.ofList [4.0, nan]) := ⟨by decide, by decide +kernel⟩
  obtain ⟨ranked, hranked, hkept⟩ :=
    mem_rank_of_hasGap_iff hquery hthreshold false Note.embedding [far, near]
  refine ⟨hquery, hthreshold, hnear, hfar, ranked, hranked, ?_, ?_⟩
  · exact (hkept near (by simp) _ rfl hnear).mpr (.inl ⟨hmeets, .inl (by decide +kernel)⟩)
  · rw [hkept far (by simp) _ rfl hfar]
    simp [Meets, query]

/-- A note whose embedding was read from a list with a gap in it is found, and with a full score. -/
theorem rank_keeps_gap :
    let t := Moment.ofDate .first
    let n := { Note.plain "a" "Tea" t with embedding := some (.ofList [nan]) }
    Note.ofJson t (.obj [("id", .str "a"), ("title", .str "Tea"),
      ("content_embedding", .arr [.null])]) = .ok n ∧
      (Grid.ofList [nan]).HasGap ∧ 0.0 ≤ (0.0 : Float) ∧
      rank (.ofList [1.0]) Note.embedding 0.0 false [n] = .ok [(n, 1.0)] := by
  intro t n
  exact ⟨by decide +kernel, ⟨nan, by simp, by decide +kernel⟩, by decide +kernel,
    by decide +kernel⟩

end Similarity

end Notebook
