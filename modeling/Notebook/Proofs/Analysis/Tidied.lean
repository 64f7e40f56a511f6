import Mathlib.Tactic.SplitIfs
import Notebook.Analysis.Cleanup
import Notebook.Proofs.Text.Trim

/-!
# Clean-up in one pass

The five steps of the clean-up read one after the other what the step before has left.  Together
they do what one pass does that knows the line breaks behind it and the next character.  What is
left out are spaces and line breaks, so a character that is no blank begins the pass anew, and
blanks between two such characters do not disappear if the second one is no punctuation mark.
-/

namespace Notebook

namespace Cleanup

open Text

/-- In front of these no space is left. -/
def swallows (c : Letter) : Bool := c == ' ' || c == '\n' || isPunctuation c

/-- All steps in one.  Behind a line break, with spaces at most since, `behind` is the number of
line breaks that stand right before; elsewhere it is `none`. -/
def tidy (behind : Option Nat) : List Letter → List Letter
  | [] => []
  | c :: r =>
    if c = '\n' then
      if behind.getD 0 < 2 then c :: tidy (some (behind.getD 0 + 1)) r else tidy behind r
    else if c = ' ' then
      if behind.isSome || r.head?.any swallows then tidy (behind.map fun _ => 0) r
      else c :: tidy none r
    else c :: tidy none r

/-! ### One character -/

theorem tidy_break {behind : Option Nat} (h : behind.getD 0 < 2) (r : List Letter) :
    tidy behind (.char '\n' :: r) = .char '\n' :: tidy (some (behind.getD 0 + 1)) r := by
  simp [tidy, h]

theorem tidy_break_of_le {k : Nat} (h : 2 ≤ k) (r : List Letter) :
    tidy (some k) (.char '\n' :: r) = tidy (some k) r := by
  have hno : ¬ k < 2 := by omega
  simp [tidy, hno]

@[simp] theorem tidy_space_some (k : Nat) (r : List Letter) :
    tidy (some k) (.char ' ' :: r) = tidy (some 0) r := by
  simp [tidy]

theorem tidy_space_none (r : List Letter) :
    tidy none (.char ' ' :: r) =
      if r.head?.any swallows then tidy none r else .char ' ' :: tidy none r := by
  simp [tidy]

theorem ne_of_holds {p : Letter → Bool} {c d : Letter} (hc : p c = false) (hd : p d = true) :
    c ≠ d := by
  rintro rfl
  exact absurd hd (by simp [hc])

theorem tidy_cons {c : Letter} (hbreak : c ≠ '\n') (hspace : c ≠ ' ') (behind : Option Nat)
    (r : List Letter) : tidy behind (c :: r) = c :: tidy none r := by
  simp [tidy, hbreak, hspace]

/-! ### The steps together -/

theorem noSpaceBeforeBreak_cons (c : Letter) (r : List Letter) :
    noSpaceBeforeBreak (c :: r) =
      if c = ' ' ∧ (noSpaceBeforeBreak r).head? = some (.char '\n') then noSpaceBeforeBreak r
      else c :: noSpaceBeforeBreak r := rfl

/-- What the five steps leave, if reading begins `behind` some line breaks. -/
def steps (behind : Option Nat) (cs : List Letter) : List Letter :=
  noSpaceBeforeMark (noSpaceAfterBreak behind.isSome
    (noSpaceBeforeBreak (twoBreaks (behind.getD 0) (singleSpaces cs))))

theorem steps_break (behind : Option Nat) (r : List Letter) :
    steps behind (.char '\n' :: r) =
      if behind.getD 0 < 2 then .char '\n' :: steps (some (behind.getD 0 + 1)) r
      else steps behind r := by
  unfold steps
  split
  · next h => simp [singleSpaces, twoBreaks, noSpaceBeforeBreak_cons, noSpaceAfterBreak,
      noSpaceBeforeMark, h]
  · next h => simp [singleSpaces, twoBreaks, h]

theorem steps_cons {c : Letter} (hbreak : c ≠ '\n') (hspace : c ≠ ' ') (behind : Option Nat)
    (r : List Letter) : steps behind (c :: r) = c :: steps none r := by
  simp [steps, singleSpaces, twoBreaks, noSpaceBeforeBreak_cons, noSpaceAfterBreak,
    noSpaceBeforeMark, hbreak, hspace]

/-- Of several spaces at the beginning one is left. -/
theorem exists_singleSpaces (r : List Letter) :
    ∃ rest, singleSpaces (.char ' ' :: r) = .char ' ' :: rest := by
  induction r with
  | nil => exact ⟨[], rfl⟩
  | cons d r ih =>
    by_cases hd : d = ' '
    · subst hd
      simpa [singleSpaces] using ih
    · exact ⟨singleSpaces (d :: r), by simp [singleSpaces, hd]⟩

theorem steps_space (behind : Option Nat) (r : List Letter) :
    steps behind (.char ' ' :: r) =
      if behind.isSome || r.head?.any swallows then steps (behind.map fun _ => 0) r
      else .char ' ' :: steps none r := by
  cases r with
  | nil => cases behind <;> rfl
  | cons d r =>
    by_cases hspace : d = ' '
    · subst hspace
      have hskip : steps behind (.char ' ' :: .char ' ' :: r) = steps behind (.char ' ' :: r) := by
        simp [steps, singleSpaces]
      obtain ⟨rest, hrest⟩ := exists_singleSpaces r
      have hcount (k : Nat) :
          twoBreaks k (singleSpaces (.char ' ' :: r)) = .char ' ' :: twoBreaks 0 rest := by
        rw [hrest]
        rfl
      rw [hskip]
      cases behind <;> simp [steps, hcount, swallows]
    · by_cases hbreak : d = '\n'
      · subst hbreak
        cases behind <;> simp [steps, singleSpaces, twoBreaks, noSpaceBeforeBreak_cons, swallows]
      · cases behind <;> cases hmark : isPunctuation d <;>
          simp [steps, singleSpaces, twoBreaks, noSpaceBeforeBreak_cons, noSpaceAfterBreak,
            noSpaceBeforeMark, swallows, hspace, hbreak, hmark]

theorem steps_eq_tidy (behind : Option Nat) (cs : List Letter) :
    steps behind cs = tidy behind cs := by
  fun_induction tidy behind cs with
  | case1 => rfl
  | case2 behind r h ih => rw [steps_break, if_pos h, ih]
  | case3 behind r h ih => rw [steps_break, if_neg h, ih]
  | case4 behind r h _ ih => rw [steps_space, if_pos h, ih]
  | case5 behind r h _ ih => rw [steps_space, if_neg h, ih]
  | case6 behind c r hbreak hspace ih => rw [steps_cons hbreak hspace, ih]

/-! ### What is left out -/

theorem tidy_sublist (behind : Option Nat) (cs : List Letter) : (tidy behind cs).Sublist cs := by
  fun_induction tidy behind cs with
  | case1 => exact List.Sublist.refl []
  | case2 _ _ _ ih => exact ih.cons_cons _
  | case3 _ _ _ ih => exact ih.cons _
  | case4 _ _ _ _ ih => exact ih.cons _
  | case5 _ _ _ _ ih => exact ih.cons_cons _
  | case6 _ _ _ _ _ ih => exact ih.cons_cons _

theorem inked_tidy (behind : Option Nat) (cs : List Letter) :
    inked (tidy behind cs) = inked cs := by
  have hbreak : isBlank '\n' = true := by decide
  have hspace : isBlank ' ' = true := by decide
  fun_induction tidy behind cs with
  | case1 => rfl
  | case2 _ _ _ ih => rw [inked_cons_of_blank hbreak, inked_cons_of_blank hbreak, ih]
  | case3 _ _ _ ih => rw [inked_cons_of_blank hbreak, ih]
  | case4 _ _ _ _ ih => rw [inked_cons_of_blank hspace, ih]
  | case5 _ _ _ _ ih => rw [inked_cons_of_blank hspace, inked_cons_of_blank hspace, ih]
  | case6 _ c _ _ _ ih =>
    cases hblank : isBlank c with
    | true => rw [inked_cons_of_blank hblank, inked_cons_of_blank hblank, ih]
    | false => rw [inked_cons hblank, inked_cons hblank, ih]

/-! ### Beginning anew -/

theorem tidy_cons_of_not_blank {c : Letter} (h : isBlank c = false) (behind : Option Nat)
    (r : List Letter) : tidy behind (c :: r) = c :: tidy none r :=
  tidy_cons (ne_of_holds h (by decide)) (ne_of_holds h (by decide)) behind r

/-- What is left up to a character that is no blank does not hang on what follows it. -/
theorem exists_tidy_append {y : Letter} (hy : isBlank y = false) (behind : Option Nat)
    (u : List Letter) :
    ∃ u', inked u' = inked u ∧ ∀ v, tidy behind (u ++ y :: v) = u' ++ y :: tidy none v := by
  have hstart : ∀ behind u, ∃ u', ∀ v, tidy behind (u ++ y :: v) = u' ++ y :: tidy none v := by
    intro behind u
    induction u generalizing behind with
    | nil => exact ⟨[], fun v => tidy_cons_of_not_blank hy behind v⟩
    | cons c u ih =>
      have hnext (v : List Letter) : (u ++ y :: v).head? = some (u.headD y) := by cases u <;> rfl
      have hkeep (behind' : Option Nat) :
          ∃ u', ∀ v, c :: tidy behind' (u ++ y :: v) = u' ++ y :: tidy none v := by
        obtain ⟨u', hu'⟩ := ih behind'
        exact ⟨c :: u', fun v => by rw [hu', List.cons_append]⟩
      simp only [List.cons_append, tidy, hnext]
      split_ifs
      · exact hkeep _
      · exact ih behind
      · exact ih _
      · exact hkeep none
      · exact hkeep none
  obtain ⟨u', hu'⟩ := hstart behind u
  refine ⟨u', ?_, hu'⟩
  have hinked := inked_tidy behind (u ++ [y])
  rw [hu', inked_append, inked_append, inked_cons hy, inked_cons hy, inked_tidy] at hinked
  exact List.append_cancel_right hinked

theorem blank_tidy {cs : List Letter} (h : ∀ c ∈ cs, isBlank c = true) (behind : Option Nat) :
    ∀ c ∈ tidy behind cs, isBlank c = true := by
  rw [← inked_eq_nil_iff] at h ⊢
  rw [inked_tidy, h]

/-- A text that ends with no blank is tidied apart from what follows it. -/
theorem tidy_append {cs : List Letter} (h : Trimmed cs) (after : List Letter) :
    tidy none (cs ++ after) = tidy none cs ++ tidy none after := by
  rcases h.eq_nil_or_concat with rfl | ⟨u, y, rfl, hy⟩
  · rfl
  · obtain ⟨u', -, hu'⟩ := exists_tidy_append hy none u
    rw [List.append_assoc, List.singleton_append, hu', hu', List.append_assoc]
    rfl

theorem trimmed_tidy {cs : List Letter} (h : Trimmed cs) : Trimmed (tidy none cs) := by
  constructor
  · intro c hc
    cases cs with
    | nil => cases hc
    | cons x w =>
      have hx : isBlank x = false := h.head x rfl
      rw [tidy_cons_of_not_blank hx] at hc
      cases hc
      exact hx
  · intro c hc
    rcases h.eq_nil_or_concat with rfl | ⟨u, y, rfl, hy⟩
    · cases hc
    · obtain ⟨u', -, hu'⟩ := exists_tidy_append hy none u
      rw [hu', tidy, List.getLast?_concat] at hc
      cases hc
      exact hy

end Cleanup

open Cleanup

/-- Cleaning up is tidying in one pass, with the blanks at the ends left out after it. -/
theorem cleanup_eq_trim_tidy (cs : List Letter) : cleanup cs = Text.trim (tidy none cs) :=
  congrArg Text.trim (steps_eq_tidy none cs)

/-- The blanks at the ends can be left out first. -/
theorem cleanup_eq_tidy_trim (cs : List Letter) : cleanup cs = tidy none (Text.trim cs) := by
  obtain ⟨before, after, h, hbefore, hafter⟩ := Text.exists_trim cs
  have htrimmed := trimmed_tidy (Text.trimmed_trim cs)
  have hafter' := blank_tidy hafter none
  rw [cleanup_eq_trim_tidy]
  cases htrim : Text.trim cs with
  | nil =>
    rw [htrim, List.nil_append] at h
    have hall : ∀ c ∈ tidy none cs, Text.isBlank c = true := by
      refine blank_tidy (fun c hc => ?_) none
      rw [h] at hc
      exact (List.mem_append.mp hc).elim (hbefore c) (hafter c)
    have hnil := Text.trimmed_nil.trim_eq _ [] hall nofun
    rwa [List.nil_append, List.append_nil] at hnil
  | cons x w =>
    rw [htrim] at h htrimmed
    have hx : Text.isBlank x = false := (htrim ▸ Text.trimmed_trim cs).head x rfl
    obtain ⟨before', hinked, hbefore'⟩ := exists_tidy_append hx none before
    rw [Text.inked_eq_nil_iff.mpr hbefore, Text.inked_eq_nil_iff] at hinked
    have hstart : tidy none cs = before' ++ (tidy none (x :: w) ++ tidy none after) := by
      rw [← tidy_append (htrim ▸ Text.trimmed_trim cs), List.cons_append,
        tidy_cons_of_not_blank hx, ← hbefore', ← List.cons_append, ← h]
    rw [hstart]
    exact htrimmed.trim_eq _ _ hinked hafter'

end Notebook
