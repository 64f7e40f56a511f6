import Mathlib.Data.List.Chain
import Mathlib.Data.List.Infix
import Notebook.Analysis.KeySentences
import Notebook.Proofs.Text.Trim

/-!
# Sentences of a text

A text falls into pieces in one way only: behind an ender all blanks separate a piece from the next
one, and elsewhere all line breaks do.  The candidates are the long ones of these pieces without
blanks around them.  They stand in the text one behind the other.
-/

namespace Notebook

namespace Text

/-- The parts stand in the text one behind the other. -/
def InTurn : List (List Letter) → List Letter → Prop
  | [], _ => True
  | p :: ps, cs => ∃ before after, cs = before ++ (p ++ after) ∧ InTurn ps after

theorem InTurn.append_left {ps : List (List Letter)} {cs : List Letter} (h : InTurn ps cs)
    (start : List Letter) : InTurn ps (start ++ cs) := by
  cases ps with
  | nil => trivial
  | cons p ps =>
    obtain ⟨before, after, rfl, hrest⟩ := h
    exact ⟨start ++ before, after, (List.append_assoc ..).symm, hrest⟩

theorem InTurn.tail {p : List Letter} {ps : List (List Letter)} {cs : List Letter}
    (h : InTurn (p :: ps) cs) : InTurn ps cs := by
  obtain ⟨before, after, rfl, hrest⟩ := h
  rw [← List.append_assoc]
  exact hrest.append_left _

theorem InTurn.isInfix {ps : List (List Letter)} {cs p : List Letter} (h : InTurn ps cs)
    (hp : p ∈ ps) : p <:+: cs := by
  induction ps with
  | nil => cases hp
  | cons q ps ih =>
    rcases List.mem_cons.mp hp with rfl | hp
    · obtain ⟨before, after, rfl, -⟩ := h
      exact ⟨before, after, List.append_assoc ..⟩
    · exact ih h.tail hp

theorem InTurn.filter {ps : List (List Letter)} {cs : List Letter} (h : InTurn ps cs)
    (keep : List Letter → Bool) : InTurn (ps.filter keep) cs := by
  induction ps generalizing cs with
  | nil => trivial
  | cons p ps ih =>
    cases hkeep : keep p with
    | false =>
      rw [List.filter_cons_of_neg (by simp [hkeep])]
      exact ih h.tail
    | true =>
      obtain ⟨before, after, rfl, hrest⟩ := h
      rw [List.filter_cons_of_pos hkeep]
      exact ⟨before, after, rfl, ih hrest⟩

theorem InTurn.map_trim {ps : List (List Letter)} {cs : List Letter} (h : InTurn ps cs) :
    InTurn (ps.map trim) cs := by
  induction ps generalizing cs with
  | nil => trivial
  | cons p ps ih =>
    obtain ⟨before, after, rfl, hrest⟩ := h
    obtain ⟨left, right, hp, -, -⟩ := exists_trim p
    refine ⟨before ++ left, right ++ after, ?_, (ih hrest).append_left right⟩
    conv_lhs => rw [hp]
    simp only [List.append_assoc]

end Text

namespace KeySentences

open Text

/-! ### Pieces -/

/-- No line break, and no ender with a blank behind it. -/
structure Whole (p : List Letter) : Prop where
  no_break : .char '\n' ∉ p
  unended : p.IsChain fun c d => Statistics.isEnder c = true → isBlank d = false

/-- Is the last character an ender? -/
def ended (p : List Letter) : Bool := p.getLast?.any Statistics.isEnder

/-- Behind an ender blanks separate, and elsewhere line breaks. -/
def separates (behindEnder : Bool) (c : Letter) : Bool :=
  if behindEnder then isBlank c else c == '\n'

/-- How a text falls into pieces.  Between two of them stands all that separates there. -/
inductive Parted : List Letter → List (List Letter) → Prop
  | last {p : List Letter} (whole : Whole p) : Parted p [p]
  | cons {p gap rest : List Letter} {ps : List (List Letter)} (whole : Whole p)
      (nonempty : gap ≠ []) (gap_separates : ∀ c ∈ gap, separates (ended p) c = true)
      (rest_head : ∀ c, rest.head? = some c → separates (ended p) c = false)
      (parted : Parted rest ps) : Parted (p ++ (gap ++ rest)) (p :: ps)

theorem whole_nil : Whole [] := ⟨List.not_mem_nil, .nil⟩

theorem Whole.of_isInfix {p q : List Letter} (h : Whole p) (hq : q <:+: p) : Whole q :=
  ⟨fun hmem => h.no_break (hq.subset hmem), List.IsChain.infix h.unended hq⟩

theorem separates_false_iff {c : Letter} : separates false c = false ↔ c ≠ '\n' := by
  simp [separates]

/-- What does not separate is no line break. -/
theorem ne_break_of_separates {e : Bool} {c : Letter} (h : separates e c = false) : c ≠ '\n' := by
  rintro rfl
  cases e <;> exact absurd h (by decide)

theorem Whole.concat {p : List Letter} (h : Whole p) {c : Letter}
    (hc : separates (ended p) c = false) : Whole (p ++ [c]) := by
  refine ⟨?_, ?_⟩
  · rw [List.mem_append, List.mem_singleton, not_or]
    exact ⟨h.no_break, (ne_break_of_separates hc).symm⟩
  · refine List.isChain_append.mpr ⟨h.unended, .singleton c, fun x hx y hy hender => ?_⟩
    cases hy
    have hx' : p.getLast? = some x := hx
    simpa [separates, ended, hx', hender] using hc

theorem ended_concat (p : List Letter) (c : Letter) : ended (p ++ [c]) = Statistics.isEnder c := by
  simp [ended]

/-! ### The cut -/

/-- What is passed over behind a piece. -/
def Gap.behind (e : Bool) : Gap := if e then .blanks else .breaks

theorem cut_none_cons (e : Bool) (c : Letter) (r : List Letter) :
    cut .none e (c :: r) =
      if separates e c then [] :: cut (.behind e) false r
      else (cut .none (Statistics.isEnder c) r).modifyHead (c :: ·) := by
  cases e with
  | false => simp [cut, separates, Gap.behind]
  | true =>
    -- a line break is a blank as well
    have hbreak : c = '\n' → isBlank c = true := by
      rintro rfl
      decide
    by_cases hc : isBlank c = true
    · simp [cut, separates, Gap.behind, hc]
    · have hno : c ≠ '\n' := fun h => hc (hbreak h)
      simp [cut, separates, hc, hno]

theorem cut_behind_cons (e : Bool) (c : Letter) (r : List Letter) :
    cut (.behind e) false (c :: r) =
      if separates e c then cut (.behind e) false r else cut .none false (c :: r) := by
  cases e <;> simp [cut, separates, Gap.behind]

theorem modifyHead_nil_append (ps : List (List Letter)) : ps.modifyHead ([] ++ ·) = ps := by
  cases ps <;> rfl

theorem modifyHead_concat_append (p : List Letter) (c : Letter) (ps : List (List Letter)) :
    ps.modifyHead (p ++ [c] ++ ·) = (ps.modifyHead (c :: ·)).modifyHead (p ++ ·) := by
  cases ps <;> simp

/-- The pieces of what is read, with what has been read of the first one before it. -/
theorem parted_cut_from (cs : List Letter) :
    (∀ p, Whole p → Parted (p ++ cs) ((cut .none (ended p) cs).modifyHead (p ++ ·))) ∧
      ∀ p gap, Whole p → gap ≠ [] → (∀ c ∈ gap, separates (ended p) c = true) →
        Parted (p ++ (gap ++ cs)) (p :: cut (.behind (ended p)) false cs) := by
  induction cs with
  | nil =>
    refine ⟨fun p hp => ?_, fun p gap hp hne hgap => ?_⟩
    · rw [List.append_nil]
      simpa [cut] using Parted.last hp
    · exact .cons hp hne hgap nofun (.last whole_nil)
  | cons c r ih =>
    obtain ⟨ihpiece, ihgap⟩ := ih
    have hpiece : ∀ p, Whole p →
        Parted (p ++ c :: r) ((cut .none (ended p) (c :: r)).modifyHead (p ++ ·)) := by
      intro p hp
      rw [cut_none_cons]
      cases hc : separates (ended p) c with
      | true =>
        rw [if_pos rfl, List.modifyHead_cons, List.append_nil]
        exact ihgap p [c] hp (by simp) (by simpa using hc)
      | false =>
        have hnext := ihpiece (p ++ [c]) (hp.concat hc)
        rw [ended_concat, modifyHead_concat_append, List.append_assoc] at hnext
        rw [if_neg (by simp)]
        exact hnext
    refine ⟨hpiece, fun p gap hp hne hgap => ?_⟩
    rw [cut_behind_cons]
    cases hc : separates (ended p) c with
    | true =>
      have hnext := ihgap p (gap ++ [c]) hp (by simp) (by simpa [or_imp, forall_and, hc] using hgap)
      simpa using hnext
    | false =>
      have hrest := hpiece [] whole_nil
      refine .cons hp hne hgap (fun d hd => ?_) ?_
      · cases hd
        exact hc
      · rwa [modifyHead_nil_append] at hrest

theorem parted_cut (cs : List Letter) : Parted cs (cut .none false cs) := by
  have hparted := (parted_cut_from cs).1 [] whole_nil
  rwa [modifyHead_nil_append] at hparted

theorem separates_of_whole {p r : List Letter} {c : Letter} (h : Whole (p ++ c :: r)) :
    separates (ended p) c = false := by
  cases hended : ended p with
  | false =>
    refine separates_false_iff.mpr fun hbreak => h.no_break ?_
    simp [hbreak]
  | true =>
    obtain ⟨x, hx, hender⟩ := (Option.any_eq_true _ _).mp hended
    exact (List.isChain_append.mp h.unended).2.2 x hx c rfl hender

/-- A cut goes on to the end of a piece. -/
theorem cut_append_whole {p q : List Letter} (h : Whole (p ++ q)) (cs : List Letter) :
    (cut .none (ended p) (q ++ cs)).modifyHead (p ++ ·) =
      (cut .none (ended (p ++ q)) cs).modifyHead (p ++ q ++ ·) := by
  induction q generalizing p with
  | nil => rw [List.append_nil, List.nil_append]
  | cons c q ih =>
    have hconcat : p ++ c :: q = p ++ [c] ++ q := by simp
    have hc := separates_of_whole h
    rw [hconcat] at h ⊢
    rw [← ih h, List.cons_append, cut_none_cons, hc, if_neg (by simp), ended_concat,
      modifyHead_concat_append]

/-- A cut passes over all that separates. -/
theorem cut_append_gap {e : Bool} {gap rest : List Letter}
    (hgap : ∀ c ∈ gap, separates e c = true)
    (hrest : ∀ c, rest.head? = some c → separates e c = false) :
    cut (.behind e) false (gap ++ rest) = cut .none false rest := by
  induction gap with
  | nil =>
    cases rest with
    | nil => rfl
    | cons c r => rw [List.nil_append, cut_behind_cons, hrest c rfl, if_neg (by simp)]
  | cons c gap ih =>
    obtain ⟨hc, hmore⟩ := List.forall_mem_cons.mp hgap
    rw [List.cons_append, cut_behind_cons, hc, if_pos rfl, ih hmore]

theorem Parted.eq_cut {cs : List Letter} {ps : List (List Letter)} (h : Parted cs ps) :
    ps = cut .none false cs := by
  have hpiece {p : List Letter} (hp : Whole p) (cs : List Letter) :
      cut .none false (p ++ cs) = (cut .none (ended p) cs).modifyHead (p ++ ·) := by
    have hcut := cut_append_whole (p := []) hp cs
    rwa [modifyHead_nil_append] at hcut
  induction h with
  | @last p hp =>
    have hcut := hpiece hp []
    rw [List.append_nil] at hcut
    rw [hcut]
    simp [cut]
  | @cons p gap rest ps hp hne hgap hrest _ ih =>
    cases gap with
    | nil => exact absurd rfl hne
    | cons c gap =>
      obtain ⟨hc, hmore⟩ := List.forall_mem_cons.mp hgap
      rw [hpiece hp, List.cons_append, cut_none_cons, hc, if_pos rfl, cut_append_gap hmore hrest,
        List.modifyHead_cons, List.append_nil, ih]

/-- The cut is the one way in which a text falls into pieces. -/
theorem parted_iff {cs : List Letter} {ps : List (List Letter)} :
    Parted cs ps ↔ ps = cut .none false cs :=
  ⟨Parted.eq_cut, fun h => h ▸ parted_cut cs⟩

/-! ### Candidates -/

theorem Parted.whole {cs : List Letter} {ps : List (List Letter)} (h : Parted cs ps) :
    ∀ p ∈ ps, Whole p := by
  induction h with
  | last hp => simpa using hp
  | cons hp _ _ _ _ ih => exact List.forall_mem_cons.mpr ⟨hp, ih⟩

theorem Parted.inTurn {cs : List Letter} {ps : List (List Letter)} (h : Parted cs ps) :
    InTurn ps cs := by
  induction h with
  | @last p => exact ⟨[], [], (List.append_nil p).symm, trivial⟩
  | @cons p gap rest ps _ _ _ _ _ ih => exact ⟨[], gap ++ rest, rfl, ih.append_left gap⟩

theorem inTurn_candidates (cs : List Letter) : InTurn (candidates cs) cs :=
  (parted_cut cs).inTurn.map_trim.filter _

/-- What every candidate is: a part of the text with more than ten characters, no blank at either
end, no line break, and no ender with a blank behind it. -/
structure IsSentence (cs s : List Letter) : Prop where
  within : s <:+: cs
  long : 10 < s.length
  trimmed : Trimmed s
  whole : Whole s

theorem isSentence_of_mem_candidates {cs s : List Letter} (h : s ∈ candidates cs) :
    IsSentence cs s := by
  obtain ⟨hmem, hlong⟩ := List.mem_filter.mp h
  obtain ⟨p, hp, rfl⟩ := List.mem_map.mp hmem
  exact ⟨(inTurn_candidates cs).isInfix h, of_decide_eq_true hlong, trimmed_trim p,
    ((parted_cut cs).whole p hp).of_isInfix (isInfix_trim p)⟩

end KeySentences

end Notebook
