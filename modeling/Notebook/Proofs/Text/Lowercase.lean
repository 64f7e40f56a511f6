import Notebook.Text.Lowercase

/-!
# Small letters of a text

Small letters may be more than the letters they come from.  A start in plain letters is not
touched by this: it comes, letter by letter, from a start of the text with the same length.

Among small letters there are no plain capitals, and what stands before the capitals has been in the
text itself.
-/

namespace Notebook.Text

/-- Every character but two has one small letter, whatever stands around it. -/
theorem lowerAt_of_ne {c : Letter} (hsigma : c ≠ 'Σ') (hdot : c ≠ 'İ') (cased : Bool)
    (rest : List Letter) : lowerAt cased c rest = [lowerChar c] := by
  simp [lowerAt, hsigma, hdot]

/-- Only a capital I with a dot is shorter than its small letters. -/
theorem length_lowerFrom {cs : List Letter} (h : .char 'İ' ∉ cs) (cased : Bool) :
    (lowerFrom cased cs).length = cs.length := by
  induction cs generalizing cased with
  | nil => rfl
  | cons c cs ih =>
    obtain ⟨hc, hcs⟩ := List.ne_and_not_mem_of_not_mem_cons h
    have hone (rest : List Letter) : (lowerAt cased c rest).length = 1 := by
      unfold lowerAt
      rw [if_neg (Ne.symm hc)]
      split <;> rfl
    rw [lowerFrom_cons, List.length_append, hone, ih hcs, List.length_cons, Nat.add_comm]

/-- The small letters of a text begin with some plain letters just where the text begins with as
many letters of which these are the small ones.  The start must not end with an `i`, as this is
also the first half of a small letter. -/
theorem lowerFrom_eq_append {start : List Letter} (hplain : ∀ c ∈ start, c.toNat < 0x80)
    (hlast : start.getLast? ≠ some (.char 'i')) {cased : Bool} {cs rest : List Letter}
    (h : lowerFrom cased cs = start ++ rest) :
    lowerFrom cased (cs.take start.length) = start ∧
      ∃ cased', lowerFrom cased' (cs.drop start.length) = rest := by
  induction start generalizing cased cs with
  | nil => exact ⟨rfl, cased, h⟩
  | cons a start ih =>
    obtain ⟨ha, hrest⟩ := List.forall_mem_cons.mp hplain
    cases cs with
    | nil => cases h
    | cons c cs =>
      rw [lowerFrom_cons] at h
      by_cases hsigma : c = 'Σ'
      · -- Both small sigmas are beyond the plain letters.
        simp only [lowerAt, hsigma, if_true, List.cons_append, List.nil_append,
          List.cons.injEq] at h
        rw [← h.1] at ha
        split at ha <;> exact absurd ha (by decide)
      · by_cases hdot : c = 'İ'
        · subst hdot
          simp only [lowerAt, hsigma, if_false, if_true, List.cons_append, List.nil_append,
            List.cons.injEq] at h
          obtain ⟨rfl, h⟩ := h
          cases start with
          | nil => exact absurd rfl hlast
          | cons b start =>
            obtain ⟨rfl, -⟩ := List.cons_eq_cons.mp h
            exact absurd (hrest _ List.mem_cons_self) (by decide)
        · rw [lowerAt_of_ne hsigma hdot] at h
          obtain ⟨rfl, htail⟩ := List.cons_eq_cons.mp h
          have hlast' : start.getLast? ≠ some (.char 'i') := by
            cases start with
            | nil => simp
            | cons b start => rwa [List.getLast?_cons_cons] at hlast
          obtain ⟨htake, hdrop⟩ := ih hrest hlast' htail
          refine ⟨?_, hdrop⟩
          rw [List.length_cons, List.take_succ_cons, lowerFrom_cons,
            lowerAt_of_ne hsigma hdot, htake]
          rfl

/-! ### What small letters are made of -/

/-- All small letters of the table stand behind the plain capitals. -/
theorem lowerChar_cases (c : Letter) :
    lowerChar c = c ∧ ¬ ('A' ≤ c ∧ c ≤ 'Z') ∨ 'Z' < lowerChar c := by
  have hbehind {n : Nat} (hn : n < 0x110000) (hlast : 90 < n) : 'Z' < Letter.ofNat n := by
    show 90 < (Letter.ofNat n).toNat
    rwa [Letter.toNat_ofNat hn]
  unfold lowerChar
  split
  · next hplain =>
    split
    · next hcapital =>
      rw [Bool.and_eq_true, decide_eq_true_eq] at hcapital
      have hfirst : 65 ≤ c.toNat := hcapital.1
      exact .inr (hbehind (by omega) (by omega))
    · next hcapital =>
      rw [Bool.and_eq_true, decide_eq_true_eq, decide_eq_true_eq] at hcapital
      exact .inl ⟨rfl, hcapital⟩
  · next hplain =>
    right
    split
    · next r hr =>
      have htable : caseRuns.all (fun r =>
          90 < r.first + r.shift ∧ r.last + r.shift < 0x110000) = true := by decide +kernel
      have hrun := List.all_eq_true.mp htable r (List.mem_of_find?_eq_some hr)
      have hholds := List.find?_some hr
      simp only [CaseRun.holds, Bool.and_eq_true, decide_eq_true_eq] at hrun hholds
      exact hbehind (by omega) (by omega)
    · show 90 < c.toNat
      omega

theorem mem_lowerFrom_cases {cased : Bool} {cs : List Letter} {x : Letter}
    (h : x ∈ lowerFrom cased cs) : x ∈ cs ∧ ¬ ('A' ≤ x ∧ x ≤ 'Z') ∨ 'Z' < x := by
  induction cs generalizing cased with
  | nil => cases h
  | cons c cs ih =>
    rw [lowerFrom_cons, List.mem_append] at h
    rcases h with h | h
    · unfold lowerAt at h
      split at h
      · split at h <;> rw [List.mem_singleton.mp h] <;> exact .inr (by decide)
      · split at h
        · simp only [List.mem_cons, List.not_mem_nil, or_false] at h
          rcases h with rfl | rfl <;> exact .inr (by decide)
        · obtain rfl := List.mem_singleton.mp h
          rcases lowerChar_cases c with ⟨hc, hcapital⟩ | hc
          · rw [hc]
            exact .inl ⟨List.mem_cons_self, hcapital⟩
          · exact .inr hc
    · exact (ih h).imp_left fun hx => ⟨List.mem_cons_of_mem c hx.1, hx.2⟩

/-- No small letter is a plain capital. -/
theorem toLower_of_mem_lowerFrom {cased : Bool} {cs : List Letter} {x : Letter}
    (h : x ∈ lowerFrom cased cs) : x.toLower = x := by
  cases x with
  | half n => rfl
  | char c =>
    refine congrArg Letter.char (dif_neg fun hcapital => ?_)
    rcases mem_lowerFrom_cases h with ⟨-, hx⟩ | hx
    · exact hx hcapital
    · exact absurd hcapital.2 (Nat.not_le.mpr hx)

end Notebook.Text
