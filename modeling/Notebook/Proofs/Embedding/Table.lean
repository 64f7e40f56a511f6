import Notebook.Embedding.Engine
import Notebook.Embedding.WordTable
import Notebook.Proofs.Keyed
import Notebook.Proofs.Vector.Grid

/-!
# Tables that were loaded

The rows of a word table that was read from a file all have as many components as the first one.
The embeddings that such a table gives are rows of singles, which can be written and read.
-/

namespace Notebook

/-! ### Even tables -/

namespace WordTable

/-- All vectors are rows of one length, and there is none before this length is settled. -/
structure Even (t : WordTable) : Prop where
  rows : ∀ q ∈ t.vectors, q.2.shape = [t.dimension]
  settled : t.dimension = 0 → t.vectors = []

theorem even_empty : empty.Even := ⟨nofun, fun _ => rfl⟩

theorem length_components {ps : List (List Char)} {xs : List Float}
    (h : components ps = .ok xs) : xs.length = ps.length := by
  induction ps generalizing xs with
  | nil =>
    cases h
    rfl
  | cons p ps ih =>
    unfold components at h
    split at h
    · obtain ⟨ys, hys, rfl⟩ := except_map_eq_ok_iff.mp h
      rw [List.length_cons, List.length_cons, ih hys]
    · cases h

theorem Even.addLine {t t' : WordTable} (ht : t.Even) {line : List Char}
    (h : t.addLine line = .ok t') : t'.Even := by
  unfold WordTable.addLine at h
  split at h
  · next word p ps _ =>
    simp only at h
    by_cases hzero : t.dimension = 0
    · -- the first row settles the length
      simp only [hzero, if_true] at h
      obtain ⟨xs, hxs, rfl⟩ := except_map_eq_ok_iff.mp h
      have hlength : xs.length = ps.length + 1 := length_components hxs
      rw [ht.settled hzero]
      refine ⟨fun q hq => ?_, fun hd => absurd hd (Nat.succ_ne_zero _)⟩
      rw [List.mem_singleton.mp hq, Grid.shape_ofList, hlength]
    · simp only [hzero, if_false] at h
      split at h
      · next hfits =>
        obtain ⟨xs, hxs, rfl⟩ := except_map_eq_ok_iff.mp h
        have hlength : xs.length = ps.length + 1 := length_components hxs
        refine ⟨fun q hq => ?_, fun hd => absurd hd hzero⟩
        rcases Keyed.mem_insert hq with rfl | hq
        · rw [Grid.shape_ofList, hlength, hfits]
        · exact ht.rows q hq
      · cases h
        exact ht
  · cases h
    exact ht

theorem Even.addLines {t t' : WordTable} (ht : t.Even) {ls : List (List Char)}
    (h : t.addLines ls = .ok t') : t'.Even := by
  induction ls generalizing t with
  | nil =>
    cases h
    exact ht
  | cons l ls ih =>
    obtain ⟨s, hs, h⟩ := except_bind_eq_ok_iff.mp h
    exact ih (ht.addLine hs) h

theorem even_of_ofFile {file : Text.Decoded} {t : WordTable} (h : ofFile file = .ok t) :
    t.Even := by
  unfold ofFile at h
  split at h
  · unfold ofLines at h
    split at h
    · cases h
      exact even_empty
    · exact even_empty.addLines h
  · obtain ⟨s, -, h⟩ := except_bind_eq_ok_iff.mp h
    cases h

theorem even_of_load {path : Text} {disk : Disk} {t : WordTable} (h : load path disk = .ok t) :
    t.Even := by
  unfold load at h
  split at h
  · cases h
  · exact even_of_ofFile (except_mapError_eq_ok_iff.mp h)

/-! ### Embeddings -/

theorem exists_sum {d : Nat} {total : Grid} {gs : List Grid} (htotal : total.shape = [d])
    (hgs : ∀ g ∈ gs, g.shape = [d]) : ∃ s, sum total gs = .ok s := by
  induction gs generalizing total with
  | nil => exact ⟨total, rfl⟩
  | cons g gs ih =>
    obtain ⟨hg, hgs⟩ := List.forall_mem_cons.mp hgs
    rw [sum, Grid.add, dif_pos (htotal.trans hg.symm)]
    exact ih htotal hgs

theorem shape_sum {d : Nat} {total s : Grid} {gs : List Grid} (htotal : total.shape = [d])
    (hgs : ∀ g ∈ gs, g.shape = [d]) (h : sum total gs = .ok s) : s.shape = [d] := by
  induction gs generalizing total with
  | nil =>
    cases h
    exact htotal
  | cons g gs ih =>
    obtain ⟨hg, hgs⟩ := List.forall_mem_cons.mp hgs
    obtain ⟨next, hnext, h⟩ := except_bind_eq_ok_iff.mp h
    rw [Grid.add, dif_pos (htotal.trans hg.symm)] at hnext
    have hshape : next.shape = [d] := by
      cases hnext
      exact htotal
    exact ih hshape hgs h

theorem Even.shape_of_mem_knownVectors {t : WordTable} (ht : t.Even) (text : Text) :
    ∀ g ∈ t.knownVectors text, g.shape = [t.dimension] := by
  intro g hg
  obtain ⟨w, -, hw⟩ := List.mem_filterMap.mp hg
  split at hw
  · cases hw
  · exact ht.rows (w, g) (Keyed.mem_of_get? hw)

/-- Every text has an embedding in an even table, a row of singles, or none if no word is known. -/
theorem Even.embed_cases {t : WordTable} (ht : t.Even) (text : Text) :
    t.knownVectors text = [] ∧ t.embed text = .ok none ∨
      t.knownVectors text ≠ [] ∧ ∃ total : Grid, total.shape = [t.dimension] ∧ ∃ n,
        t.embed text = .ok (some (total.map fun x => Decimal.toSingle (x / n))) := by
  unfold embed
  have hknown := ht.shape_of_mem_knownVectors text
  cases hvectors : t.knownVectors text with
  | nil => exact .inl ⟨rfl, rfl⟩
  | cons first rest =>
    rw [hvectors, List.forall_mem_cons] at hknown
    obtain ⟨total, htotal⟩ := exists_sum hknown.1 hknown.2
    refine .inr ⟨List.cons_ne_nil _ _, total, shape_sum hknown.1 hknown.2 htotal,
      Decimal.ofNat (rest.length + 1), ?_⟩
    simp only [htotal]
    rfl

/-- The embeddings of an even table are sound. -/
theorem Even.sound_embed {t : WordTable} (ht : t.Even) {text : Text} {o : Option Grid}
    (h : t.embed text = .ok o) : ∀ g ∈ o, g.Sound := by
  rcases ht.embed_cases text with ⟨-, hnone⟩ | ⟨-, total, hshape, n, hsome⟩
  · cases hnone.symm.trans h
    exact nofun
  · cases hsome.symm.trans h
    rintro g ⟨⟩
    refine ⟨?_, ?_, fun x hx => ?_⟩
    · rw [Grid.shape_map, hshape]
      exact Nat.le_of_ble_eq_true rfl
    · rw [Grid.shape_map, hshape]
      exact Grid.regular_singleton _
    · obtain ⟨y, -, rfl⟩ := List.mem_map.mp hx
      exact Decimal.toSingle_toSingle _

end WordTable

/-- The embeddings of an engine with an even table, or with none, are sound. -/
theorem Engine.sound_embed {e : Engine} (he : ∀ t ∈ e.table, t.Even) {text : Text}
    {o : Option Grid} (h : e.embed text = .ok o) : ∀ g ∈ o, g.Sound := by
  unfold embed at h
  split at h
  · cases h
    exact nofun
  · next t ht => exact (he t ht).sound_embed h

end Notebook
