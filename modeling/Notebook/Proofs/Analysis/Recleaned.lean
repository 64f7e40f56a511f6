import Mathlib.Data.List.Chain
import Mathlib.Data.List.Infix
import Notebook.Proofs.Analysis.Tidied

/-!
# Cleaning up again

In a cleaned text no space is left that should not be there, but three line breaks may follow each
other: line breaks are counted before the spaces between them are taken out.  A second clean-up
then takes one out, and a third one changes nothing more.  It tells from the text whether this
happens: three of its line breaks have spaces only between them, and at least one.
-/

namespace Notebook

namespace Cleanup

open List

/-! ### Spaces -/

/-- May `d` stand right behind `c`? -/
def Fits (c d : Letter) : Prop := (c = ' ' → swallows d = false) ∧ (c = '\n' → d ≠ ' ')

theorem head?_tidy_some (k : Nat) (cs : List Letter) :
    (tidy (some k) cs).head? ≠ some (.char ' ') := by
  induction cs generalizing k with
  | nil => simp [tidy]
  | cons c cs ih =>
    by_cases hbreak : c = '\n'
    · subst hbreak
      by_cases hk : k < 2
      · rw [tidy_break (by simpa using hk)]
        simp
      · rw [tidy_break_of_le (by omega)]
        exact ih k
    · by_cases hspace : c = ' '
      · subst hspace
        rw [tidy_space_some]
        exact ih 0
      · rw [tidy_cons hbreak hspace]
        simpa using hspace

/-- No space is left beside a line break, before a punctuation mark or beside another space. -/
theorem isChain_tidy (behind : Option Nat) (cs : List Letter) : (tidy behind cs).IsChain Fits := by
  fun_induction tidy behind cs with
  | case1 => exact .nil
  | case2 behind r h ih =>
    refine isChain_cons.mpr ⟨fun d hd => ⟨by simp, ?_⟩, ih⟩
    rintro - rfl
    exact head?_tidy_some _ _ hd
  | case3 behind r h ih => exact ih
  | case4 behind r hswallow _ ih => exact ih
  | case5 behind r hkeep _ ih =>
    -- what comes next is kept, as it is neither a space nor a line break
    refine isChain_cons.mpr ⟨fun d hd => ⟨fun _ => ?_, by simp⟩, ih⟩
    cases r with
    | nil => cases hd
    | cons d' r =>
      have hnext : swallows d' = false := by
        rw [Bool.or_eq_true, not_or] at hkeep
        simpa using hkeep.2
      rw [tidy_cons (ne_of_holds hnext (by decide)) (ne_of_holds hnext (by decide))] at hd
      cases hd
      exact hnext
  | case6 behind c r hbreak hspace ih =>
    exact isChain_cons.mpr ⟨fun d _ => ⟨fun h => absurd h hspace, fun h => absurd h hbreak⟩, ih⟩

/-! ### Line breaks -/

def threeBreaks : List Letter := [.char '\n', .char '\n', .char '\n']

/-- Three line breaks have spaces only between them, and at least one. -/
def Loose (cs : List Letter) : Prop :=
  ∃ i j, 0 < i + j ∧ .char '\n' ::
    (replicate i (.char ' ') ++ .char '\n' :: (replicate j (.char ' ') ++ [.char '\n'])) <:+: cs

theorem threeBreaks_infix_replicate {m : Nat} (h : 3 ≤ m) (cs : List Letter) :
    threeBreaks <:+: replicate m (.char '\n') ++ cs := by
  obtain ⟨m, rfl⟩ := Nat.exists_eq_add_of_le' h
  exact ⟨replicate m (.char '\n'), cs, by rw [replicate_add]; rfl⟩

theorem replicate_append_cons (m : Nat) (c : Letter) (cs : List Letter) :
    replicate m c ++ c :: cs = replicate (m + 1) c ++ cs := by
  rw [replicate_succ', append_assoc, singleton_append]

/-- Three line breaks that go beyond two at the beginning stand behind what comes next. -/
theorem threeBreaks_infix_of_cons {m : Nat} (hm : m < 3) {c : Letter} (hc : c ≠ '\n')
    {cs : List Letter} (h : threeBreaks <:+: replicate m (.char '\n') ++ c :: cs) :
    threeBreaks <:+: cs := by
  induction m with
  | zero =>
    rw [replicate_zero, nil_append, infix_cons_iff] at h
    refine h.resolve_left fun hstart => hc ?_
    exact (cons_prefix_cons.mp hstart).1.symm
  | succ m ih =>
    rw [replicate_succ, cons_append, infix_cons_iff] at h
    refine ih (by omega) (h.resolve_left fun hstart => ?_)
    -- two more would have to stand before `c`
    obtain ⟨-, hstart⟩ := cons_prefix_cons.mp hstart
    cases m with
    | zero => exact hc (cons_prefix_cons.mp hstart).1.symm
    | succ m =>
      obtain rfl : m = 0 := by omega
      exact hc (cons_prefix_cons.mp (cons_prefix_cons.mp hstart).2).1.symm

/-- A text without misplaced spaces and three line breaks is left as it is. -/
theorem tidy_eq_self {behind : Option Nat} {cs : List Letter} (hfits : cs.IsChain Fits)
    (hhead : behind.isSome → cs.head? ≠ some (.char ' '))
    (hthree : ¬ threeBreaks <:+: replicate (behind.getD 0) (.char '\n') ++ cs) :
    tidy behind cs = cs := by
  have htail {m : Nat} {c : Letter} {r : List Letter}
      (h : ¬ threeBreaks <:+: replicate m (.char '\n') ++ c :: r) :
      ¬ threeBreaks <:+: replicate 0 (.char '\n') ++ r :=
    fun hr => h (hr.trans ((suffix_cons c r).trans (suffix_append _ _)).isInfix)
  have hnone {r : List Letter} : (none : Option Nat).isSome → r.head? ≠ some (.char ' ') := nofun
  fun_induction tidy behind cs with
  | case1 => rfl
  | case2 behind r h ih =>
    obtain ⟨hnext, hr⟩ := isChain_cons.mp hfits
    rw [replicate_append_cons] at hthree
    rw [ih hr (fun _ hspace => (hnext _ hspace).2 rfl rfl) hthree]
  | case3 behind r h ih =>
    rw [replicate_append_cons] at hthree
    exact absurd (threeBreaks_infix_replicate (by omega) r) hthree
  | case4 behind r hswallow _ ih =>
    rcases Bool.or_eq_true_iff.mp hswallow with hbehind | hnext
    · exact absurd rfl (hhead hbehind)
    · cases r with
      | nil => cases hnext
      | cons d r =>
        have hno : swallows d = false := (isChain_cons_cons.mp hfits).1.1 rfl
        exact absurd (show swallows d = true from hnext) (by simp [hno])
  | case5 behind r hkeep _ ih =>
    rw [ih (isChain_cons.mp hfits).2 hnone (htail hthree)]
  | case6 behind c r hbreak hspace ih =>
    rw [ih (isChain_cons.mp hfits).2 hnone (htail hthree)]

/-! ### What stays -/

/-- In a cleaned text no three line breaks have spaces between them. -/
theorem not_loose_of_fits {cs : List Letter} (h : cs.IsChain Fits) : ¬ Loose cs := by
  rintro ⟨i, j, hij, hwithin⟩
  have hpart := List.IsChain.infix h hwithin
  have hno {r : List Letter} : ¬ (.char '\n' :: .char ' ' :: r).IsChain Fits := fun hr =>
    (isChain_cons_cons.mp hr).1.2 rfl rfl
  cases i with
  | succ i => exact hno hpart
  | zero =>
    cases j with
    | zero => omega
    | succ j => exact hno (isChain_cons_cons.mp hpart).2

theorem Loose.of_suffix {cs ds : List Letter} (h : Loose cs) (hs : cs <:+ ds) : Loose ds := by
  obtain ⟨i, j, hij, hwithin⟩ := h
  exact ⟨i, j, hij, hwithin.trans hs.isInfix⟩

/-- What has been read from the first line break on, spaces and line breaks only; how many line
breaks are left of it; and what a pass knows of it.  So far no three have been left. -/
inductive Read : List Letter → Nat → Option Nat → Prop
  | none : Read [] 0 none
  | one (i : Nat) : Read (.char '\n' :: replicate i (.char ' ')) 1 (some (if i = 0 then 1 else 0))
  | two (i j : Nat) :
    Read (.char '\n' :: (replicate i (.char ' ') ++ .char '\n' :: replicate j (.char ' '))) 2
      (some (if j = 0 then if i = 0 then 2 else 1 else 0))

theorem Read.lt {read : List Letter} {m : Nat} {behind : Option Nat} (h : Read read m behind) :
    m < 3 := by
  cases h <;> omega

/-- If three line breaks are left, the text has three with spaces between them. -/
theorem loose_of_threeBreaks {read : List Letter} {m : Nat} {behind : Option Nat}
    (hread : Read read m behind) {cs : List Letter}
    (h : threeBreaks <:+: replicate m (.char '\n') ++ tidy behind cs) : Loose (read ++ cs) := by
  induction cs generalizing read m behind with
  | nil =>
    have hlength := h.length_le
    have hm := hread.lt
    simp only [threeBreaks, tidy, append_nil, length_replicate, length_cons, length_nil] at hlength
    omega
  | cons c cs ih =>
    by_cases hbreak : c = '\n'
    · subst hbreak
      cases hread with
      | none =>
        rw [tidy_break (by decide), replicate_append_cons] at h
        exact ih (.one 0) h
      | one i =>
        have hlt : (if i = 0 then 1 else 0) < 2 := by split <;> omega
        rw [tidy_break (by simpa using hlt), replicate_append_cons] at h
        have hstate : (if i = 0 then 1 else 0) + 1 = if i = 0 then 2 else 1 := by split <;> rfl
        rw [Option.getD_some, hstate] at h
        simpa using ih (.two i 0) h
      | two i j =>
        by_cases hij : 0 < i + j
        · refine ⟨i, j, hij, [], cs, ?_⟩
          simp
        · obtain ⟨rfl, rfl⟩ : i = 0 ∧ j = 0 := by omega
          rw [if_pos rfl, if_pos rfl, tidy_break_of_le (by omega)] at h
          have hnext := ih (.two 0 0) h
          exact hnext.of_suffix (suffix_cons _ _)
    · by_cases hspace : c = ' '
      · subst hspace
        cases hread with
        | none =>
          refine (ih .none ?_).of_suffix (suffix_cons _ _)
          rw [tidy_space_none] at h
          split at h
          · exact h
          · exact threeBreaks_infix_of_cons (m := 0) (by omega) (by decide) h
        | one i =>
          rw [tidy_space_some] at h
          have hnext := ih (.one (i + 1)) h
          simpa [replicate_append_cons] using hnext
        | two i j =>
          rw [tidy_space_some] at h
          have hnext := ih (.two i (j + 1)) h
          simpa [replicate_append_cons] using hnext
      · rw [tidy_cons hbreak hspace] at h
        have hnext := ih .none (threeBreaks_infix_of_cons hread.lt hbreak h)
        exact hnext.of_suffix ((suffix_cons c cs).trans (suffix_append read _))

theorem tidy_spaces (k i : Nat) (cs : List Letter) :
    tidy (some k) (replicate i (.char ' ') ++ cs) = tidy (some (if i = 0 then k else 0)) cs := by
  induction i generalizing k with
  | zero => rfl
  | succ i ih =>
    rw [replicate_succ, cons_append, tidy_space_some, ih, if_neg (Nat.succ_ne_zero i)]
    split <;> rfl

/-- Behind a line break a pass knows of it, whether it is left or not. -/
theorem exists_tidy_break (behind : Option Nat) (cs : List Letter) :
    ∃ k, 0 < k ∧ replicate (behind.getD 0) (.char '\n') ++ tidy behind (.char '\n' :: cs) =
      replicate k (.char '\n') ++ tidy (some k) cs := by
  by_cases hlt : behind.getD 0 < 2
  · exact ⟨behind.getD 0 + 1, by omega, by rw [tidy_break hlt, replicate_append_cons]⟩
  · cases behind with
    | none => exact absurd (show (0 : Nat) < 2 by omega) hlt
    | some k =>
      have hk : 2 ≤ k := Nat.le_of_not_lt hlt
      exact ⟨k, by omega, by rw [tidy_break_of_le hk]; rfl⟩

theorem threeBreaks_of_spaces {k i j : Nat} (hk : 0 < k) (hij : 0 < i + j) (cs : List Letter) :
    threeBreaks <:+: replicate k (.char '\n') ++ tidy (some k)
      (replicate i (.char ' ') ++ .char '\n' :: (replicate j (.char ' ') ++ .char '\n' :: cs)) := by
  by_cases hi : i = 0
  · have hj : j ≠ 0 := by omega
    rw [tidy_spaces, if_pos hi]
    by_cases hlt : k < 2
    · rw [tidy_break (by simpa using hlt), replicate_append_cons, tidy_spaces, if_neg hj,
        tidy_break (by decide), replicate_append_cons]
      exact threeBreaks_infix_replicate (by omega) _
    · rw [tidy_break_of_le (by omega), tidy_spaces, if_neg hj, tidy_break (by decide),
        replicate_append_cons]
      exact threeBreaks_infix_replicate (by omega) _
  · have hlt : (if j = 0 then 1 else 0) < 2 := by split <;> omega
    rw [tidy_spaces, if_neg hi, tidy_break (by decide), replicate_append_cons, tidy_spaces,
      tidy_break (by simpa using hlt), replicate_append_cons]
    exact threeBreaks_infix_replicate (by omega) _

/-- Three line breaks with spaces between them are left. -/
theorem threeBreaks_of_loose {i j : Nat} (hij : 0 < i + j) (behind : Option Nat)
    (u v : List Letter) :
    threeBreaks <:+: replicate (behind.getD 0) (.char '\n') ++ tidy behind (u ++ .char '\n' ::
      (replicate i (.char ' ') ++ .char '\n' :: (replicate j (.char ' ') ++ .char '\n' :: v))) := by
  induction u generalizing behind with
  | nil =>
    obtain ⟨k, hk, heq⟩ := exists_tidy_break behind
      (replicate i (.char ' ') ++ .char '\n' :: (replicate j (.char ' ') ++ .char '\n' :: v))
    rw [nil_append, heq]
    exact threeBreaks_of_spaces hk hij v
  | cons c u ih =>
    -- behind no line break it stands in what follows
    have hnone (cs : List Letter) (hcs : tidy none (u ++ _) <:+ cs) : threeBreaks <:+: cs :=
      (ih none).trans hcs.isInfix
    rw [cons_append]
    by_cases hbreak : c = '\n'
    · subst hbreak
      obtain ⟨k, -, heq⟩ := exists_tidy_break behind (u ++ _)
      rw [heq]
      exact ih (some k)
    · by_cases hspace : c = ' '
      · subst hspace
        cases behind with
        | none =>
          rw [tidy_space_none]
          split
          · exact ih none
          · exact hnone _ (suffix_cons _ _)
        | some k =>
          rw [tidy_space_some]
          exact (ih (some 0)).trans (suffix_append _ _).isInfix
      · rw [tidy_cons hbreak hspace]
        exact hnone _ ((suffix_cons _ _).trans (suffix_append _ _))

theorem threeBreaks_tidy_iff (cs : List Letter) :
    threeBreaks <:+: tidy none cs ↔ Loose cs := by
  constructor
  · intro h
    exact loose_of_threeBreaks .none h
  · rintro ⟨i, j, hij, u, v, rfl⟩
    have h := threeBreaks_of_loose hij none u v
    simpa using h

end Cleanup

open Cleanup

theorem isChain_cleanup (cs : List Letter) : (cleanup cs).IsChain Fits := by
  rw [cleanup_eq_tidy_trim]
  exact isChain_tidy none _

theorem trim_cleanup (cs : List Letter) : Text.trim (cleanup cs) = cleanup cs := by
  rw [cleanup_eq_tidy_trim]
  exact (trimmed_tidy (Text.trimmed_trim cs)).trim_eq_self

theorem threeBreaks_cleanup_iff (cs : List Letter) :
    threeBreaks <:+: cleanup cs ↔ Loose (Text.trim cs) := by
  rw [cleanup_eq_tidy_trim, threeBreaks_tidy_iff]

/-- What is cleaned has three line breaks no more when it is cleaned again. -/
theorem not_threeBreaks_cleanup_cleanup (cs : List Letter) :
    ¬ threeBreaks <:+: cleanup (cleanup cs) := by
  rw [threeBreaks_cleanup_iff, trim_cleanup]
  exact not_loose_of_fits (isChain_cleanup cs)

theorem cleanup_cleanup_of_not_threeBreaks {cs : List Letter} (h : ¬ threeBreaks <:+: cleanup cs) :
    cleanup (cleanup cs) = cleanup cs := by
  rw [cleanup_eq_tidy_trim (cleanup cs), trim_cleanup]
  exact tidy_eq_self (isChain_cleanup cs) nofun h

/-- A cleaned text has no spaces where none belong.  To clean it again changes it just if three
line breaks have been left, and they are left just if three line breaks of the text, blanks at its
ends aside, have spaces only between them, and at least one.  A third time changes nothing. -/
theorem cleanup_cleanup_eq_iff (cs : List Letter) :
    (¬ [.char ' ', .char ' '] <:+: cleanup cs ∧ ¬ [.char ' ', .char '\n'] <:+: cleanup cs ∧
        ¬ [.char '\n', .char ' '] <:+: cleanup cs ∧
          ∀ c, isPunctuation c = true → ¬ [.char ' ', c] <:+: cleanup cs) ∧
      (cleanup (cleanup cs) = cleanup cs ↔ ¬ threeBreaks <:+: cleanup cs) ∧
      (threeBreaks <:+: cleanup cs ↔ Loose (Text.trim cs)) ∧
      cleanup (cleanup (cleanup cs)) = cleanup (cleanup cs) := by
  have hfits {c d : Letter} (h : [c, d] <:+: cleanup cs) : Fits c d := by
    have hpair := List.IsChain.infix (isChain_cleanup cs) h
    exact List.isChain_pair.mp hpair
  refine ⟨⟨fun h => ?_, fun h => ?_, fun h => (hfits h).2 rfl rfl, fun c hc h => ?_⟩, ⟨?_, ?_⟩,
    threeBreaks_cleanup_iff cs, ?_⟩
  · exact absurd ((hfits h).1 rfl) (by decide)
  · exact absurd ((hfits h).1 rfl) (by decide)
  · exact absurd ((hfits h).1 rfl) (by simp [swallows, hc])
  · intro h
    rw [← h]
    exact not_threeBreaks_cleanup_cleanup cs
  · exact cleanup_cleanup_of_not_threeBreaks
  · exact cleanup_cleanup_of_not_threeBreaks (not_threeBreaks_cleanup_cleanup cs)

/-- No space is left before the comma of `tea , milk`. -/
theorem cleanup_cleanup_eq_iff_comma :
    isPunctuation ',' = true ∧
      ¬ [.char ' ', .char ','] <:+: cleanup ("tea , milk" : Text).toList := by
  have hcomma : isPunctuation ',' = true := by decide
  exact ⟨hcomma, (cleanup_cleanup_eq_iff _).1.2.2.2 ',' hcomma⟩

/-- Of two lines with a space in each, two empty lines are left, and of these one. -/
theorem cleanup_cleanup_ne :
    let cs := ("a\n \n \nb" : Text).toList
    Text.ofList (cleanup cs) = "a\n\n\nb" ∧ Text.ofList (cleanup (cleanup cs)) = "a\n\nb" ∧
      threeBreaks <:+: cleanup cs ∧ cleanup (cleanup cs) ≠ cleanup cs := by
  decide

end Notebook
