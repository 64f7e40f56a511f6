import Mathlib.Logic.Relation
import Notebook.Proofs.Embedding.Table
import Notebook.Proofs.Text.Parts
import Notebook.Proofs.Text.PlainCase

/-!
# Texts that a table takes for one another

The embedding of a text is told by those of its words that the table knows, in small letters and in
their order.  Between two texts that differ in other words, in their blanks or in the case of plain
letters a table does not tell.
-/

namespace Notebook

open Text

namespace WordTable

variable {t : WordTable}

/-! ### Words that count -/

/-- The vector that a word of a text counts with.  How long it is, is told in small letters, where a
capital I with a dot is two characters. -/
def vectorOf? (t : WordTable) (word : Text) : Option Grid :=
  if (lower word).length < 3 then none else t.vector? (lower word)

theorem knownVectors_eq (t : WordTable) (text : Text) :
    t.knownVectors text = (words text).filterMap t.vectorOf? := by
  rw [knownVectors, words_lower, List.filterMap_map]
  refine List.filterMap_congr fun w _ => ?_
  unfold vectorOf?
  rw [Function.comp_apply]

theorem vectorOf?_eq_none_iff {word : Text} :
    t.vectorOf? word = none ↔ (lower word).length < 3 ∨ t.contains (lower word) = false := by
  unfold vectorOf? contains
  split
  · next hshort => simp [hshort]
  · next hlong => simp [hlong]

theorem knownVectors_eq_nil_iff {text : Text} :
    t.knownVectors text = [] ↔
      ∀ w ∈ words (lower text), 3 ≤ w.length → t.contains w = false := by
  rw [knownVectors_eq, List.filterMap_eq_nil_iff, words_lower, List.forall_mem_map]
  refine forall₂_congr fun w _ => ?_
  rw [vectorOf?_eq_none_iff, ← Nat.not_le, or_iff_not_imp_left, not_not]

theorem embed_congr {text text' : Text} (h : t.knownVectors text = t.knownVectors text') :
    t.embed text = t.embed text' := by
  unfold embed
  rw [h]

/-! ### Changes that do not count -/

/-- One change of a text. -/
inductive Reworded (t : WordTable) (text text' : Text) : Prop
  /-- A word is put in, anywhere among the others, that is too short or that the table has not. -/
  | insert (before after : List Text) (word : Text) (htext : words text = before ++ after)
    (htext' : words text' = before ++ word :: after)
    (hword : (lower word).length < 3 ∨ t.contains (lower word) = false)
  /-- Plain letters change their case. -/
  | recase (h : uncapped text = uncapped text')
  /-- Other blanks stand between the words. -/
  | respace (h : words text = words text')

/-- How long a word is, is told as it is written, unless it has a capital I with a dot. -/
theorem Reworded.insert_short {text text' : Text} (before after : List Text) (word : Text)
    (htext : words text = before ++ after) (htext' : words text' = before ++ word :: after)
    (hdot : .char 'İ' ∉ word.toList) (hshort : word.length < 3) : t.Reworded text text' := by
  have hlength : (lower word).length = word.length := by
    rw [lower, Text.length, Text.toList_ofList, lowerChars, length_lowerFrom hdot,
      Text.length_toList]
  exact .insert before after word htext htext' (.inl (hlength.trans_lt hshort))

theorem Reworded.knownVectors_eq {text text' : Text} (h : t.Reworded text text') :
    t.knownVectors text' = t.knownVectors text := by
  cases h with
  | insert before after word htext htext' hword =>
    rw [WordTable.knownVectors_eq, WordTable.knownVectors_eq, htext, htext', List.filterMap_append,
      List.filterMap_append, List.filterMap_cons_none (vectorOf?_eq_none_iff.mpr hword)]
  | recase h =>
    have hlower : lower text' = lower text := by
      rw [← lower_uncapped text', ← h, lower_uncapped]
    rw [knownVectors, knownVectors, hlower]
  | respace h => rw [WordTable.knownVectors_eq, WordTable.knownVectors_eq, h]

theorem embed_of_reworded {text text' : Text}
    (h : Relation.ReflTransGen t.Reworded text text') : t.embed text' = t.embed text := by
  induction h with
  | refl => rfl
  | tail _ hlast ih => exact (embed_congr hlast.knownVectors_eq).trans ih

/-! ### Loaded tables -/

/-- The vectors of a loaded table all have as many components as it says.  With it every text has an
embedding with as many components, or none just if the table has no word of three characters or more
among the small letters of the text, and any number of changes that do not count leave the embedding
as it is. -/
theorem load_embed {path : Text} {disk : Disk} (h : load path disk = .ok t) :
    (∀ q ∈ t.vectors, q.2.shape = [t.dimension] ∧ q.2.entries.length = t.dimension) ∧
      ∀ text, ∃ o, (Engine.ofTable t).embed text = .ok o ∧
        (o = none ↔ ∀ w ∈ words (lower text), 3 ≤ w.length → t.contains w = false) ∧
        (∀ g ∈ o, g.shape = [t.dimension] ∧ g.entries.length = t.dimension) ∧
        ∀ text', Relation.ReflTransGen t.Reworded text text' →
          (Engine.ofTable t).embed text' = .ok o := by
  have ht := even_of_load h
  have hlength {g : Grid} (hg : g.shape = [t.dimension]) :
      g.shape = [t.dimension] ∧ g.entries.length = t.dimension :=
    ⟨hg, by rw [g.full, hg]; simp [entryCount]⟩
  have hsame {text : Text} {o : Option Grid} (ho : t.embed text = .ok o) :
      ∀ text', Relation.ReflTransGen t.Reworded text text' →
        (Engine.ofTable t).embed text' = .ok o :=
    fun text' hchanges => (embed_of_reworded hchanges).trans ho
  refine ⟨fun q hq => hlength (ht.rows q hq), fun text => ?_⟩
  rw [← knownVectors_eq_nil_iff]
  rcases ht.embed_cases text with ⟨hnil, hnone⟩ | ⟨hne, total, hshape, n, hsome⟩
  · exact ⟨none, hnone, by simp [hnil], nofun, hsame hnone⟩
  · refine ⟨_, hsome, by simp [hne], ?_, hsame hsome⟩
    rintro g ⟨⟩
    exact hlength hshape

/-- Two words are put in, one of which is short and one unknown, and one becomes capital. -/
theorem load_embed_tea :
    let disk : Disk := [(["v.txt"], .file (.ofString "Tea 1 2\nmilk 2 4\n"))]
    let t : WordTable := ⟨[("tea", .ofList [1.0, 2.0]), ("milk", .ofList [2.0, 4.0])], 2⟩
    load "v.txt" disk = .ok t ∧
      Relation.ReflTransGen t.Reworded "tea milk" "TEA of\nsome\t milk" ∧
      (Engine.ofTable t).embed "TEA of\nsome\t milk" = .ok (some (.ofList [1.5, 3.0])) := by
  intro disk t
  have hload : load "v.txt" disk = .ok t := by decide +kernel
  have hof : t.Reworded "tea milk" "tea of milk" :=
    .insert_short ["tea"] ["milk"] "of" (by decide) (by decide) (by decide) (by decide)
  have hsome : t.Reworded "tea of milk" "tea of some milk" :=
    .insert ["tea", "of"] ["milk"] "some" (by decide) (by decide) (.inr (by decide))
  have hcase : t.Reworded "tea of some milk" "TEA of some milk" := .recase (by decide)
  have hblanks : t.Reworded "TEA of some milk" "TEA of\nsome\t milk" := .respace (by decide)
  have hchanges : Relation.ReflTransGen t.Reworded "tea milk" "TEA of\nsome\t milk" :=
    (((Relation.ReflTransGen.single hof).tail hsome).tail hcase).tail hblanks
  have hbefore : (Engine.ofTable t).embed "tea milk" = .ok (some (.ofList [1.5, 3.0])) := by
    decide +kernel
  obtain ⟨o, ho, -, -, hsame⟩ := (load_embed hload).2 "tea milk"
  obtain rfl : o = some (.ofList [1.5, 3.0]) := Except.ok.inj (ho.symm.trans hbefore)
  exact ⟨hload, hchanges, hsame _ hchanges⟩

end WordTable

end Notebook
