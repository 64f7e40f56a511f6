import Notebook.Proofs.Analysis.Tidied

/-!
# What a clean-up keeps

Nothing but blanks is left out of a text.  Characters with blanks between them have blanks between
them afterwards, so no two words become one.  Only a punctuation mark may move up to what stands
before it.
-/

namespace Notebook

namespace Text

/-- After the characters `before`, blanks not counted, the text has `x`, then blanks, then `y`, and
`after` follows, blanks not counted. -/
structure Apart (cs before : List Letter) (x y : Letter) (after : List Letter) : Prop where
  left : isBlank x = false
  right : isBlank y = false
  gap : ∃ u g v, cs = u ++ x :: (g ++ y :: v) ∧ g ≠ [] ∧ (∀ c ∈ g, isBlank c = true) ∧
    inked u = before ∧ inked v = after

theorem Apart.trim {cs before after : List Letter} {x y : Letter} (h : Apart cs before x y after) :
    Apart (trim cs) before x y after := by
  obtain ⟨hx, hy, u, g, v, rfl, hne, hg, hu, hv⟩ := h
  exact ⟨hx, hy, _, g, _, trim_append_cons hx hy u g v, hne, hg, by rw [inked_dropWhile, hu],
    by rw [inked_dropEndWhile, hv]⟩

end Text

namespace Cleanup

open Text

/-- Blanks in front of a character that is no punctuation mark begin with a blank that is kept, or
with blanks that another one follows. -/
theorem exists_tidy_cons {y : Letter} (hy : isBlank y = false) (hmark : isPunctuation y = false)
    {g : List Letter} (hne : g ≠ []) (hg : ∀ c ∈ g, isBlank c = true) (v : List Letter) :
    ∃ c r, tidy none (g ++ y :: v) = c :: r ∧ isBlank c = true := by
  induction g with
  | nil => exact absurd rfl hne
  | cons c g ih =>
    obtain ⟨hc, hmore⟩ := List.forall_mem_cons.mp hg
    rw [List.cons_append]
    by_cases hbreak : c = '\n'
    · subst hbreak
      exact ⟨_, _, tidy_break (by decide) _, hc⟩
    · by_cases hspace : c = ' '
      · subst hspace
        rw [tidy_space_none]
        split
        · next hswallow =>
          -- `y` swallows no space, so another blank stands before it
          have hne : g ≠ [] := by
            have hnobreak : y ≠ '\n' := ne_of_holds hy (by decide)
            have hnospace : y ≠ ' ' := ne_of_holds hy (by decide)
            rintro rfl
            simp [swallows, hmark, hnobreak, hnospace] at hswallow
          exact ih hne hmore
        · exact ⟨_, _, rfl, hc⟩
      · exact ⟨_, _, tidy_cons hbreak hspace _ _, hc⟩

theorem apart_tidy {cs before after : List Letter} {x y : Letter} (h : Apart cs before x y after)
    (hmark : isPunctuation y = false) : Apart (tidy none cs) before x y after := by
  obtain ⟨hx, hy, u, g, v, rfl, hne, hg, hu, hv⟩ := h
  obtain ⟨u', hinked, hu'⟩ := exists_tidy_append hx none u
  obtain ⟨g', hinked', hg'⟩ := exists_tidy_append hy none g
  rw [inked_eq_nil_iff.mpr hg, inked_eq_nil_iff] at hinked'
  obtain ⟨c, r, hcons, hc⟩ := exists_tidy_cons hy hmark hne hg v
  refine ⟨hx, hy, u', g', tidy none v, by rw [hu', hg'], ?_, hinked', by rw [hinked, hu],
    by rw [inked_tidy, hv]⟩
  rintro rfl
  rw [hg', List.nil_append] at hcons
  cases hcons
  exact absurd hc (by simp [hy])

end Cleanup

open Text Cleanup

/-- A clean-up leaves out blanks only, and keeps apart what blanks keep apart, up to punctuation
marks. -/
theorem cleanup_keeps_apart (cs : List Letter) :
    (cleanup cs).Sublist cs ∧ inked (cleanup cs) = inked cs ∧
      ∀ before x y after, isPunctuation y = false → Apart cs before x y after →
        Apart (cleanup cs) before x y after := by
  rw [cleanup_eq_trim_tidy]
  refine ⟨(isInfix_trim _).sublist.trans (tidy_sublist none cs), ?_, ?_⟩
  · rw [inked_trim, inked_tidy]
  · intro before x y after hmark h
    exact (apart_tidy h hmark).trim

/-- The words of `tea \n and` do not become one, though a space goes with the line break. -/
theorem cleanup_keeps_apart_tea :
    let cs := ("tea \n and" : Text).toList
    let before := ("te" : Text).toList
    let after := ("nd" : Text).toList
    isPunctuation 'a' = false ∧ Apart cs before 'a' 'a' after ∧
      Apart (cleanup cs) before 'a' 'a' after := by
  intro cs before after
  have hmark : isPunctuation 'a' = false := by decide
  have happart : Apart cs before 'a' 'a' after :=
    ⟨by decide, by decide, before, (" \n " : Text).toList, after, by decide, by decide,
      inked_eq_nil_iff.mp (by decide), by decide, by decide⟩
  exact ⟨hmark, happart, (cleanup_keeps_apart _).2.2 _ _ _ _ hmark happart⟩

end Notebook
