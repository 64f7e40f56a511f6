import Notebook.Note.Record
import Notebook.Proofs.Query.Grammar
import Notebook.Proofs.Text.Parts
import Notebook.Query.Matching

/-!
# Terms in the texts of a note

The texts of a note are joined by spaces, and a term of a query is a word.  A term therefore stands
in the joined texts if it stands in one of them; it never reaches from one into the next.
-/

namespace Notebook

open Text

/-- The texts in which terms are looked for. -/
def Note.texts (n : Note) : List Text := n.title :: n.body :: (n.tags ++ n.tasks.map (·.text))

/-- The texts are put in small letters one by one. -/
theorem Note.searchableText_eq (n : Note) :
    n.searchableText = Text.intercalate " " [lower n.title, lower n.body,
      Text.intercalate " " (n.tags.map lower),
      Text.intercalate " " (n.tasks.map fun t => lower t.text)] := by
  rw [searchableText, lower_intercalate]
  simp only [List.map_cons, List.map_nil, lower_intercalate, List.map_map]
  rfl

theorem Note.infix_searchableText_iff {part : List Letter} (hne : part ≠ [])
    (hspace : .char ' ' ∉ part) (n : Note) :
    part <:+: n.searchableText.toList ↔ ∃ text ∈ n.texts, part <:+: (lower text).toList := by
  rw [searchableText_eq, infix_intercalate_iff hne hspace]
  simp [texts, infix_intercalate_iff hne hspace, or_and_right, exists_or]

namespace Query

theorem textTerms_parse (raw : Text) :
    (parse raw).descriptor.textTerms = wordsIn (some .free) (words raw) := by
  unfold parse tokens
  rw [ofTokens_words]
  rfl

/-- In small letters, too, a term is not empty and has no space in it. -/
theorem lower_of_mem_textTerms {raw t : Text} (h : t ∈ (parse raw).descriptor.textTerms) :
    (lower t).toList ≠ [] ∧ .char ' ' ∉ (lower t).toList := by
  rw [textTerms_parse] at h
  obtain ⟨hne, hblank⟩ := of_mem_words (List.mem_filter.mp h).1
  have hspace : .char ' ' ∉ t.toList := fun hmem => absurd (hblank ' ' hmem) (by decide)
  rw [toList_lower]
  exact ⟨lowerFrom_ne_nil hne false, space_notMem_lowerFrom hspace false⟩

/-- A term stands in one of the texts of a note or nowhere. -/
theorem occursIn_searchableText_iff {raw t : Text}
    (ht : t ∈ (parse raw).descriptor.textTerms) (n : Note) :
    let term := (lower t).toList
    (occursIn term n.searchableText.toList = true ↔
      term <:+: (lower n.title).toList ∨ term <:+: (lower n.body).toList ∨
        (∃ tag ∈ n.tags, term <:+: (lower tag).toList) ∨
        ∃ task ∈ n.tasks, term <:+: (lower task.text).toList) ∧
    n.searchableText = Text.intercalate " " [lower n.title, lower n.body,
      Text.intercalate " " (n.tags.map lower),
      Text.intercalate " " (n.tasks.map fun t => lower t.text)] ∧
    ∀ left right before after, n.searchableText.toList = left ++ .char ' ' :: right →
      n.searchableText.toList = before ++ term ++ after →
        (∃ rest, left = before ++ term ++ rest) ∨ ∃ rest, right = rest ++ term ++ after := by
  intro term
  obtain ⟨hne, hspace⟩ := lower_of_mem_textTerms ht
  refine ⟨?_, n.searchableText_eq, fun left right before after hleft hterm => ?_⟩
  · rw [occursIn_iff, Note.infix_searchableText_iff hne hspace]
    simp [term, Note.texts, or_and_right, exists_or]
  · exact left_or_right_of_space hspace (hleft.symm.trans hterm)

/-- The term ends with a sigma that is final in the title and in a tag, and not in the body. -/
theorem occursIn_searchableText_sigma :
    let n := { Note.plain "a" "ΝΕΟΣ" (.ofDate .first) with body := "ΟΣΟ", tags := ["ΟΔΟΣ ΜΟΥ"] }
    let term := (lower "ΟΣ").toList
    ("ΟΣ" : Text) ∈ (parse "is:fav ΟΣ").descriptor.textTerms ∧ ¬ term <:+: (lower n.body).toList ∧
      occursIn term n.searchableText.toList = true := by
  intro n term
  have hterm : ("ΟΣ" : Text) ∈ (parse "is:fav ΟΣ").descriptor.textTerms := by decide +kernel
  have htag : ∃ tag ∈ n.tags, term <:+: (lower tag).toList :=
    ⟨"ΟΔΟΣ ΜΟΥ", List.mem_cons_self, by decide +kernel⟩
  exact ⟨hterm, by decide +kernel,
    (occursIn_searchableText_iff hterm n).1.mpr (.inr (.inr (.inl htag)))⟩

end Query

end Notebook
