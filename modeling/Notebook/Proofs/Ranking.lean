import Notebook.Keyed

/-!
# What ranking leaves alone

Leaving items out commutes with ranking: the others keep their order, whether they are picked
before or after.  Items with equal keys keep the order in which they came.  This needs keys that
stand in one line.
-/

namespace Notebook

variable {α β : Type}

/-! ### Heads -/

theorem headUpTo_sublist (n : Int) (xs : List α) : (headUpTo n xs).Sublist xs := by
  unfold headUpTo
  split <;> exact List.take_sublist _ _

theorem mem_of_mem_headUpTo {n : Int} {xs : List α} {a : α} (h : a ∈ headUpTo n xs) : a ∈ xs :=
  (headUpTo_sublist n xs).subset h

theorem headUpTo_map (n : Int) (f : α → β) (xs : List α) :
    headUpTo n (xs.map f) = (headUpTo n xs).map f := by
  unfold headUpTo
  rw [List.length_map]
  split <;> exact List.map_take.symm

theorem headUpTo_of_length_le {n : Int} {xs : List α} (h : xs.length ≤ n) : headUpTo n xs = xs := by
  rw [headUpTo, if_pos (by omega)]
  exact List.take_of_length_le (by omega)

/-- What holds along a list holds between the first items and those that are left out. -/
theorem rel_of_mem_take {R : α → α → Prop} {xs : List α} (h : xs.Pairwise R) {n : Nat} {a b : α}
    (hb : b ∈ xs.take n) (ha : a ∈ xs) (hout : a ∉ xs.take n) : R b a := by
  rw [← List.take_append_drop n xs] at h ha
  exact (List.pairwise_append.mp h).2.2 b hb a ((List.mem_append.mp ha).resolve_left hout)

/-! ### Stable sorting -/

section Sorting

variable {le : α → α → Bool}

/-- The head of a list comes after the items that are before it in the order, and ahead of all
others. -/
theorem mergeSort_cons_eq (trans : ∀ a b c, le a b = true → le b c = true → le a c = true)
    (total : ∀ a b, (le a b || le b a) = true) (a : α) (xs : List α) :
    ∃ before after, (a :: xs).mergeSort le = before ++ a :: after ∧
      xs.mergeSort le = before ++ after ∧
      (∀ b ∈ before, le a b = false) ∧ ∀ b ∈ after, le a b = true := by
  obtain ⟨before, after, hcons, htail, hbefore⟩ := List.mergeSort_cons trans total a xs
  refine ⟨before, after, hcons, htail, fun b hb => by simpa using hbefore b hb, ?_⟩
  have hsorted := List.pairwise_mergeSort trans total (a :: xs)
  rw [hcons, List.pairwise_append] at hsorted
  exact (List.pairwise_cons.mp hsorted.2.1).1

/-- The place of an item among others is told by the order alone. -/
theorem mergeSort_cons_eq_filter
    (trans : ∀ a b c, le a b = true → le b c = true → le a c = true)
    (total : ∀ a b, (le a b || le b a) = true) (a : α) (xs : List α) :
    (a :: xs).mergeSort le = (xs.mergeSort le).filter (fun b => !le a b) ++
      a :: (xs.mergeSort le).filter (le a) := by
  obtain ⟨before, after, hcons, htail, hbefore, hafter⟩ := mergeSort_cons_eq trans total a xs
  have hleft : (before ++ after).filter (fun b => !le a b) = before := by
    rw [List.filter_append, List.filter_eq_self.mpr (by simpa using hbefore),
      List.filter_eq_nil_iff.mpr (by simpa using hafter), List.append_nil]
  have hright : (before ++ after).filter (le a) = after := by
    rw [List.filter_append, List.filter_eq_nil_iff.mpr (by simpa using hbefore),
      List.filter_eq_self.mpr hafter, List.nil_append]
  rw [hcons, htail, hleft, hright]

theorem filter_mergeSort (trans : ∀ a b c, le a b = true → le b c = true → le a c = true)
    (total : ∀ a b, (le a b || le b a) = true) (p : α → Bool) (xs : List α) :
    (xs.mergeSort le).filter p = (xs.filter p).mergeSort le := by
  induction xs with
  | nil => simp
  | cons a xs ih =>
    cases ha : p a with
    | false =>
      obtain ⟨before, after, hcons, htail, -⟩ := mergeSort_cons_eq trans total a xs
      rw [List.filter_cons_of_neg (by simp [ha]), ← ih, hcons, htail, List.filter_append,
        List.filter_cons_of_neg (by simp [ha]), List.filter_append]
    | true =>
      -- the cuts of both lists at `a` are filters, and filters commute
      rw [List.filter_cons_of_pos ha, mergeSort_cons_eq_filter trans total a xs,
        mergeSort_cons_eq_filter trans total a (xs.filter p), ← ih, List.filter_append,
        List.filter_cons_of_pos ha]
      simp only [List.filter_filter, Bool.and_comm]

/-- What holds along a list holds along the sorted list for items that are equal in the order. -/
theorem pairwise_mergeSort_stable
    (trans : ∀ a b c, le a b = true → le b c = true → le a c = true)
    (total : ∀ a b, (le a b || le b a) = true) {R : α → α → Prop} {xs : List α}
    (h : xs.Pairwise R) :
    (xs.mergeSort le).Pairwise fun a b => le a b = true ∧ (le b a = true → R a b) := by
  induction xs with
  | nil => simp
  | cons a xs ih =>
    obtain ⟨hhead, htail⟩ := List.pairwise_cons.mp h
    obtain ⟨before, after, hcons, hsort, hbefore, hafter⟩ := mergeSort_cons_eq trans total a xs
    have hxs := ih htail
    rw [hsort, List.pairwise_append] at hxs
    obtain ⟨hleft, hright, hacross⟩ := hxs
    rw [hcons, List.pairwise_append, List.pairwise_cons]
    refine ⟨hleft, ⟨fun b hb => ⟨hafter b hb, fun _ => hhead b ?_⟩, hright⟩, fun b hb c hc => ?_⟩
    · exact List.mem_mergeSort.mp (hsort ▸ List.mem_append_right before hb)
    · rcases List.mem_cons.mp hc with rfl | hc
      · have hbc := total c b
        rw [hbefore b hb, Bool.false_or] at hbc
        exact ⟨hbc, fun hcb => absurd hcb (by simp [hbefore b hb])⟩
      · exact hacross b hb c hc

end Sorting

/-! ### Ranking -/

theorem rankBy_perm (above : β → β → Bool) (key : α → β) (xs : List α) :
    (rankBy above key xs).Perm xs := List.mergeSort_perm _ _

/-- Ranking looks at the keys that are there and at no others. -/
theorem rankBy_eq_mergeSort {le : α → α → Bool} {above : β → β → Bool} {key : α → β} {xs : List α}
    (h : ∀ a ∈ xs, ∀ b ∈ xs, (!above (key b) (key a)) = le a b) :
    rankBy above key xs = xs.mergeSort le := by
  have hsame : (xs.mergeSort fun a b => !above (key b) (key a)).map id = (xs.map id).mergeSort le :=
    List.map_mergeSort h
  rwa [List.map_id, List.map_id] at hsame

theorem rankBy_map {γ : Type} (above : β → β → Bool) (key : α → β) (f : γ → α) (xs : List γ) :
    rankBy above key (xs.map f) = (rankBy above (key ∘ f) xs).map f := by
  have hmap : ∀ a ∈ xs, ∀ b ∈ xs,
      (!above (key (f b)) (key (f a))) = !above ((key ∘ f) b) ((key ∘ f) a) := fun _ _ _ _ => rfl
  exact (List.map_mergeSort hmap).symm

/-- Ranking looks at the order of keys only. -/
theorem rankBy_congr {γ : Type} {above : β → β → Bool} {above' : γ → γ → Bool} {key : α → β}
    {key' : α → γ} (h : ∀ a b, above (key a) (key b) = above' (key' a) (key' b)) (xs : List α) :
    rankBy above key xs = rankBy above' key' xs := by
  unfold rankBy
  congr 1
  funext a b
  rw [h]

/-- What is left out before is left out after, if the keys stand in one line. -/
theorem filter_rankBy {le : α → α → Bool}
    (trans : ∀ a b c, le a b = true → le b c = true → le a c = true)
    (total : ∀ a b, (le a b || le b a) = true) {above : β → β → Bool} {key : α → β} {xs : List α}
    (h : ∀ a ∈ xs, ∀ b ∈ xs, (!above (key b) (key a)) = le a b) (p : α → Bool) :
    (rankBy above key xs).filter p = rankBy above key (xs.filter p) := by
  have hp : ∀ a ∈ xs.filter p, ∀ b ∈ xs.filter p, (!above (key b) (key a)) = le a b :=
    fun a ha b hb => h a (List.mem_filter.mp ha).1 b (List.mem_filter.mp hb).1
  rw [rankBy_eq_mergeSort h, rankBy_eq_mergeSort hp, filter_mergeSort trans total]

/-- Ranked by a number, items come in falling order of it, and those with equal numbers as they
came. -/
theorem pairwise_rankBy (key : α → Nat) {R : α → α → Prop} {xs : List α} (h : xs.Pairwise R) :
    (rankBy (fun a b : Nat => b < a) key xs).Pairwise fun a b =>
      key b < key a ∨ key b = key a ∧ R a b := by
  have htrans : ∀ a b c, (!decide (key a < key b)) = true → (!decide (key b < key c)) = true →
      (!decide (key a < key c)) = true := by
    intro a b c hab hbc
    simp only [Bool.not_eq_true', decide_eq_false_iff_not] at hab hbc ⊢
    omega
  have htotal : ∀ a b, (!decide (key a < key b) || !decide (key b < key a)) = true := by
    intro a b
    simp only [Bool.or_eq_true, Bool.not_eq_true', decide_eq_false_iff_not]
    omega
  refine (pairwise_mergeSort_stable htrans htotal h).imp fun {a b} hab => ?_
  obtain ⟨hle, hequal⟩ := hab
  simp only [Bool.not_eq_true', decide_eq_false_iff_not, Nat.not_lt] at hle hequal
  rcases Nat.lt_or_eq_of_le hle with hlt | heq
  · exact .inl hlt
  · exact .inr ⟨heq, hequal (Nat.le_of_eq heq.symm)⟩

/-! ### Places -/

theorem pairwise_zipIdx (items : List α) : items.zipIdx.Pairwise fun a b => a.2 < b.2 := by
  have hplaces : (items.zipIdx.map Prod.snd).Pairwise (· < ·) := by
    rw [List.zipIdx_map_snd]
    exact List.pairwise_lt_range' 1
  exact List.pairwise_map.mp hplaces

end Notebook
