import Mathlib.Data.List.Nodup
import Mathlib.Data.List.Perm.Basic
import Notebook.Proofs.Embedding.Ranked
import Notebook.Search.Searcher

/-!
# The notes most similar to a note

Among notes with different ids, those that are proposed for a note are as many as there may be of
those that come into question, and the best of them: what is left out is no more similar, and where
it is as similar it comes later.
-/

namespace Notebook.Searcher

variable {α : Type} (note : α → Note) {s : Searcher} {reference : Note} {g : Grid}
  {items found : List α}

/-! ### Notes that come into question -/

/-- The similarity of two notes, if both have embeddings that can be compared. -/
def similarity? (m n : Note) : Option Float :=
  match m.embedding, n.embedding with
  | some g, some h => (Similarity.score g h).toOption
  | _, _ => none

/-- May a note be proposed for another one? -/
def proposes (s : Searcher) (reference n : Note) : Bool :=
  n.id ≠ reference.id && n.isSearchable &&
    (similarity? reference n).any fun x => s.similarThreshold ≤ x

/-- As many of the items as there may be, and the best of them. -/
structure Closest (s : Searcher) (reference : Note) (items found : List α) : Prop where
  length_eq : (found.length : ℤ) =
    min s.similarLimit (items.countP fun a => s.proposes reference (note a))
  proposed : ∀ a ∈ found, a ∈ items ∧ s.proposes reference (note a) = true
  nodup : (found.map fun a => (note a).id).Nodup
  ne_reference : ∀ a ∈ found, note a ≠ reference
  /-- Of two items of the same similarity the one that is left out comes later. -/
  best : ∀ a ∈ items, s.proposes reference (note a) = true → a ∉ found → ∀ b ∈ found, ∀ x y,
    similarity? reference (note a) = some x → similarity? reference (note b) = some y →
      x ≤ y ∧ ((x == y) = true → [b, a].Sublist items)

theorem similarity?_eq_some_iff (hg : reference.embedding = some g) {n : Note} {x : Float} :
    similarity? reference n = some x ↔
      ∃ h, n.embedding = some h ∧ Similarity.score g h = .ok x := by
  unfold similarity?
  rw [hg]
  cases n.embedding with
  | none => simp
  | some h => cases hx : Similarity.score g h <;> simp [hx, Except.toOption]

theorem reaches_inclusive_iff {threshold x : Float} :
    Similarity.reaches threshold true x = true ↔ threshold ≤ x := by
  rw [Decimal.le_iff_lt_or_beq, Decimal.beq_symm_iff]
  simp [Similarity.reaches]

theorem proposes_iff {n : Note} :
    s.proposes reference n = true ↔ n.id ≠ reference.id ∧ n.isSearchable = true ∧
      ∃ x, similarity? reference n = some x ∧ s.similarThreshold ≤ x := by
  simp [proposes, Option.any_eq_true, and_assoc]

/-! ### What is found -/

theorem findSimilar_eq_ok_iff (hg : reference.embedding = some g) :
    s.findSimilar note reference items = .ok found ↔
      ∃ ps, Similarity.rank g (fun a => (note a).embedding) s.similarThreshold true
          (others note reference items) = .ok ps ∧
        (headUpTo s.similarLimit ps).map Prod.fst = found := by
  unfold findSimilar similarNotes
  simp only [hg, Option.getD_some, except_map_eq_ok_iff, rank, except_mapError_eq_ok_iff]

/-- The items that are ranked are those that come into question, with their similarities. -/
theorem mem_ranked_iff (hg : reference.embedding = some g) {ps : List (α × Float)}
    (hps : Similarity.rank g (fun a => (note a).embedding) s.similarThreshold true
      (others note reference items) = .ok ps) {a : α} {x : Float} :
    (a, x) ∈ ps ↔ a ∈ items ∧ s.proposes reference (note a) = true ∧
      similarity? reference (note a) = some x := by
  rw [Similarity.mem_rank_iff hps, reaches_inclusive_iff, ← similarity?_eq_some_iff hg, others,
    List.mem_filter, proposes_iff]
  constructor
  · rintro ⟨⟨⟨ha, hothers⟩, hx⟩, hle⟩
    rw [Bool.and_eq_true, decide_eq_true_eq] at hothers
    exact ⟨ha, ⟨hothers.1, hothers.2, x, hx, hle⟩, hx⟩
  · rintro ⟨ha, ⟨hid, hsearchable, y, hy, hle⟩, hx⟩
    obtain rfl : y = x := Option.some.inj (hy.symm.trans hx)
    exact ⟨⟨⟨ha, by simp [hid, hsearchable]⟩, hx⟩, hle⟩

section Ranked

variable {note} {ps : List (α × Float)}
  (hps : Similarity.rank g (fun a => (note a).embedding) s.similarThreshold true
    (others note reference items) = .ok ps)
include hps

theorem nodup_ids_ranked (hids : (items.map fun a => (note a).id).Nodup) :
    (ps.map fun p => (note p.1).id).Nodup :=
  Similarity.nodup_rank hps (hids.sublist (List.filter_sublist.map _))

theorem length_ranked (hg : reference.embedding = some g)
    (hids : (items.map fun a => (note a).id).Nodup) :
    ps.length = items.countP fun a => s.proposes reference (note a) := by
  have hitems : items.Nodup := hids.of_map
  have hfst : (ps.map Prod.fst).Nodup := by
    refine Similarity.nodup_rank hps (f := id) ?_
    rw [List.map_id]
    exact hitems.filter _
  have hperm : (ps.map Prod.fst).Perm (items.filter fun a => s.proposes reference (note a)) := by
    refine (List.perm_ext_iff_of_nodup hfst (hitems.filter _)).mpr fun a => ?_
    rw [List.mem_map, List.mem_filter]
    constructor
    · rintro ⟨⟨b, x⟩, hb, rfl⟩
      obtain ⟨hmem, hproposes, -⟩ := (mem_ranked_iff note hg hps).mp hb
      exact ⟨hmem, hproposes⟩
    · rintro ⟨ha, hproposes⟩
      obtain ⟨-, -, x, hx, -⟩ := proposes_iff.mp hproposes
      exact ⟨(a, x), (mem_ranked_iff note hg hps).mpr ⟨ha, hproposes, hx⟩, rfl⟩
  rw [List.countP_eq_length_filter, ← hperm.length_eq, List.length_map]

/-- An item that is left out is below the others or, where it is as similar, behind them. -/
theorem le_of_left_out (hg : reference.embedding = some g) {n : ℕ} {a b : α} {x y : Float}
    (ha : a ∈ items)
    (hproposes : s.proposes reference (note a) = true) (hout : a ∉ (ps.take n).map Prod.fst)
    (hb : b ∈ (ps.take n).map Prod.fst) (hx : similarity? reference (note a) = some x)
    (hy : similarity? reference (note b) = some y) :
    x ≤ y ∧ ((x == y) = true → [b, a].Sublist items) := by
  obtain ⟨⟨b, y'⟩, hbtake, rfl⟩ := List.mem_map.mp hb
  obtain ⟨-, -, hy'⟩ := (mem_ranked_iff note hg hps).mp (List.mem_of_mem_take hbtake)
  obtain rfl : y' = y := Option.some.inj (hy'.symm.trans hy)
  have haps : (a, x) ∈ ps := (mem_ranked_iff note hg hps).mpr ⟨ha, hproposes, hx⟩
  have hsorted := Similarity.pairwise_rank hps (R := fun b a => [b, a].Sublist items)
    (List.pairwise_iff_forall_sublist.mpr fun h => h.trans List.filter_sublist)
  rcases rel_of_mem_take hsorted hbtake haps fun h => hout (List.mem_map_of_mem h) with
    hlt | ⟨heq, hbefore⟩
  · exact ⟨Decimal.le_iff_lt_or_beq.mpr (.inl hlt),
      fun heq => absurd heq (Decimal.not_beq_of_lt hlt)⟩
  · exact ⟨Decimal.le_iff_lt_or_beq.mpr (.inr heq), fun _ => hbefore⟩

end Ranked

/-- Whatever the embeddings are, what is found for a note is the best there is, and if its own
embedding is a row, something is found. -/
theorem findSimilar_closest (hg : reference.embedding = some g) (hlimit : 0 ≤ s.similarLimit)
    (hids : (items.map fun a => (note a).id).Nodup) :
    (g.shape.length ≤ 1 → ∃ found, s.findSimilar note reference items = .ok found) ∧
      ∀ found, s.findSimilar note reference items = .ok found →
        Closest note s reference items found := by
  constructor
  · intro hrow
    obtain ⟨ps, hps⟩ := Similarity.exists_rank_of_row hrow (fun a => (note a).embedding)
      s.similarThreshold true (others note reference items)
    exact ⟨_, (findSimilar_eq_ok_iff note hg).mpr ⟨ps, hps, rfl⟩⟩
  · intro found hfound
    obtain ⟨ps, hps, rfl⟩ := (findSimilar_eq_ok_iff note hg).mp hfound
    obtain ⟨n, hn⟩ := Int.eq_ofNat_of_zero_le hlimit
    have hproposed : ∀ a ∈ (ps.take n).map Prod.fst,
        a ∈ items ∧ s.proposes reference (note a) = true := by
      intro a ha
      obtain ⟨⟨b, x⟩, hb, rfl⟩ := List.mem_map.mp ha
      obtain ⟨hmem, hproposes, -⟩ := (mem_ranked_iff note hg hps).mp (List.mem_of_mem_take hb)
      exact ⟨hmem, hproposes⟩
    rw [hn, headUpTo_ofNat]
    refine ⟨?_, hproposed, ?_, ?_, ?_⟩
    · rw [List.length_map, List.length_take, length_ranked hps hg hids, hn]
      omega
    · rw [List.map_map]
      exact (nodup_ids_ranked hps hids).sublist ((List.take_sublist n ps).map _)
    · intro a ha h
      exact (proposes_iff.mp (hproposed a ha).2).1 (congrArg Note.id h)
    · intro a ha hproposes hout b hb x y hx hy
      exact le_of_left_out hps hg ha hproposes hout hb hx hy

/-- Three notes come into question, two of them with the same similarity; one is archived, one has
another embedding and one is the note itself. -/
theorem findSimilar_closest_tie :
    let t := Moment.ofDate .first
    let reference := { Note.plain "r" "Oolong" t with embedding := some (.ofList [3.0, 4.0]) }
    let next := { reference with id := "a", embedding := some (.ofList [4.0, 3.0]) }
    let hidden := { reference with id := "b", archived := true }
    let same := { reference with id := "c", embedding := some (.ofList [6.0, 8.0]) }
    let later := { reference with id := "d", embedding := some (.ofList [8.0, 6.0]) }
    let other := { reference with id := "e", embedding := some (.ofList [3.0]) }
    let items := [reference, next, hidden, same, later, other]
    let s := { new (.new none) with similarLimit := 2 }
    reference.embedding = some (.ofList [3.0, 4.0]) ∧ 0 ≤ s.similarLimit ∧
      (items.map (·.id)).Nodup ∧
      ∃ found, s.findSimilar id reference items = .ok found ∧
        Closest id s reference items found ∧ found.length = 2 := by
  intro t reference next hidden same later other items s
  have hids : (items.map (·.id)).Nodup := by decide
  have hg : reference.embedding = some (.ofList [3.0, 4.0]) := rfl
  obtain ⟨hexists, hclosest⟩ := findSimilar_closest id (s := s) hg (by decide) hids
  obtain ⟨found, hfound⟩ := hexists (by decide)
  refine ⟨hg, by decide, hids, found, hfound, hclosest found hfound, ?_⟩
  have hlength := (hclosest found hfound).length_eq
  have hcount : (items.countP fun a => s.proposes reference (id a)) = 3 := by decide +kernel
  have hlimit : s.similarLimit = 2 := rfl
  rw [hcount, hlimit] at hlength
  omega

end Notebook.Searcher
