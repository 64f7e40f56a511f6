import Notebook.Proofs.Analysis.Candidates
import Notebook.Proofs.Text.Lowercase
import Notebook.Proofs.Text.Parts
import Notebook.Proofs.Text.PlainCase

/-!
# Titles

A title has capitals at its start and behind spaces, and small letters elsewhere.  The candidates of
a text are titles.  Another text has the same small letters as a candidate just if the candidate is
its title.
-/

namespace Notebook

/-! ### Titles of texts -/

namespace Text

/-- Capitals at the start, if it begins something, and behind spaces. -/
def titleFrom (begins : Bool) : List Letter → List Letter
  | [] => []
  | c :: r => (if begins then c.toUpper else c) :: titleFrom (c == ' ') r

/-- The small letters of a text, with plain capitals at the start and behind spaces. -/
def titled (s : Text) : Text := Text.ofList (titleFrom true (lowerChars s.toList))

theorem map_toLower_titleFrom (begins : Bool) (cs : List Letter) :
    (titleFrom begins cs).map Letter.toLower = cs.map Letter.toLower := by
  induction cs generalizing begins with
  | nil => rfl
  | cons c cs ih =>
    rw [titleFrom, List.map_cons, List.map_cons, ih]
    cases begins <;> simp [toLower_toUpper]

/-- A title has the small letters of the text. -/
theorem uncapped_titled (s : Text) : uncapped (titled s) = lower s := by
  refine Text.ext ?_
  rw [toList_uncapped, titled, Text.toList_ofList, map_toLower_titleFrom, toList_lower]
  exact (List.map_congr_left fun c hc => toLower_of_mem_lowerFrom hc).trans (List.map_id _)

theorem titled_congr {s s' : Text} (h : lower s = lower s') : titled s = titled s' := by
  have hchars : lowerChars s.toList = lowerChars s'.toList := ofList_inj.mp h
  rw [titled, titled, hchars]

/-- A title is told by small letters alone. -/
theorem lower_eq_lower_iff {s title : Text} (h : titled title = title) :
    lower s = lower title ↔ titled s = title := by
  constructor
  · intro hs
    rw [titled_congr hs, h]
  · intro hs
    rw [← uncapped_titled, ← uncapped_titled, h, hs]

/-- Only spaces begin something. -/
theorem titleFrom_append {r : List Letter} (hr : .char ' ' ∉ r) (rest : List Letter) :
    titleFrom false (r ++ rest) = r ++ titleFrom false rest := by
  induction r with
  | nil => rfl
  | cons c r ih =>
    obtain ⟨hc, hr⟩ := List.ne_and_not_mem_of_not_mem_cons hr
    have hno : (c == ' ') = false := beq_eq_false_iff_ne.mpr (Ne.symm hc)
    rw [List.cons_append, titleFrom, hno, ih hr]
    rfl

/-! ### Plain characters -/

theorem lowerChars_of_plain {cs : List Letter} (h : ∀ c ∈ cs, c.toNat < 0x80) :
    lowerChars cs = cs.map Letter.toLower := by
  have hfrom : ∀ cased, lowerFrom cased cs = cs.map Letter.toLower := by
    induction cs with
    | nil => exact fun _ => rfl
    | cons c cs ih =>
      intro cased
      obtain ⟨hc, hcs⟩ := List.forall_mem_cons.mp h
      have hsigma : c ≠ 'Σ' := by rintro rfl; exact absurd hc (by decide)
      have hdot : c ≠ 'İ' := by rintro rfl; exact absurd hc (by decide)
      have hchar : lowerChar c = c.toLower :=
        forall_of_toNat_lt (P := fun c => lowerChar c = c.toLower) (by decide) hc
      rw [lowerFrom_cons, lowerAt_of_ne hsigma hdot, ih hcs, hchar]
      rfl
  exact hfrom false

end Text

/-! ### Candidates -/

namespace Entities

open Text

theorem plain_of_isAlpha {l : Letter} (h : l.isAlpha = true) : l.toNat < 0x80 := by
  obtain ⟨c⟩ | _ := l
  case half => exact absurd h Bool.false_ne_true
  rcases Bool.or_eq_true_iff.mp (show (c.isUpper || c.isLower) = true from h) with h | h
  · exact Nat.lt_of_le_of_lt (of_decide_eq_true (p := _ ∧ c.val ≤ 'Z'.val) h).2 (by decide)
  · have hlast : c.val ≤ 'z'.val := of_decide_eq_true (Bool.and_eq_true_iff.mp h).2
    exact Nat.lt_of_le_of_lt hlast (by decide)

theorem plain_of_isInner {c : Letter} (h : isInner c = true) : c.toNat < 0x80 := by
  simp only [isInner, isLetter, Bool.or_eq_true, beq_iff_eq] at h
  rcases h with (h | rfl) | rfl
  · exact plain_of_isAlpha h
  · decide
  · decide

theorem ne_space_of_isInner {c : Letter} (h : isInner c = true) : c ≠ ' ' := by
  rintro rfl
  exact absurd h (by decide)

theorem IsWord.isInner {w : List Letter} (hw : IsWord w) {c : Letter} (h : c ∈ w) :
    isInner c = true := by
  cases w with
  | nil => cases h
  | cons a r =>
    rcases List.mem_cons.mp h with rfl | h
    · simp [Entities.isInner, hw.1]
    · exact hw.2 c h

theorem IsWord.space_notMem {w : List Letter} (hw : IsWord w) :
    .char ' ' ∉ w.map Letter.toLower := by
  intro h
  obtain ⟨c, hc, hspace⟩ := List.mem_map.mp h
  exact ne_space_of_isInner (hw.isInner hc) ((toLower_eq_iff (by decide) c).mp hspace)

theorem IsWord.plain_capitalize {w : List Letter} (hw : IsWord w) :
    ∀ c ∈ capitalize w, c.toNat < 0x80 := by
  cases w with
  | nil => cases hw
  | cons a r =>
    have hplain : ∀ c ∈ a :: r, c.toNat < 0x80 := fun c hc => plain_of_isInner (hw.isInner hc)
    obtain ⟨ha, hr⟩ := List.forall_mem_cons.mp hplain
    refine List.forall_mem_cons.mpr ⟨?_, List.forall_mem_map.mpr fun c hc => ?_⟩
    · exact forall_of_toNat_lt (P := fun c => c.toUpper.toNat < 0x80) (by decide) ha
    · exact forall_of_toNat_lt (P := fun c => c.toLower.toNat < 0x80) (by decide) (hr c hc)

theorem map_toLower_capitalize (w : List Letter) :
    (capitalize w).map Letter.toLower = w.map Letter.toLower := by
  cases w <;> simp [capitalize, Text.toLower_toUpper, Text.toLower_toLower]

theorem IsWord.titleFrom_append {w : List Letter} (hw : IsWord w) (rest : List Letter) :
    titleFrom true (w.map Letter.toLower ++ rest) = capitalize w ++ titleFrom false rest := by
  cases w with
  | nil => cases hw
  | cons c r =>
    obtain ⟨hc, hr⟩ := List.ne_and_not_mem_of_not_mem_cons hw.space_notMem
    have hno : (c.toLower == ' ') = false := beq_eq_false_iff_ne.mpr (Ne.symm hc)
    rw [List.map_cons, List.cons_append, titleFrom, hno, Text.titleFrom_append hr]
    simp [capitalize, Text.toUpper_toLower]

/-- Of the small letters of a name the title is the name with its words capitalized. -/
theorem titleFrom_spaced {name : List (List Letter)} (h : ∀ w ∈ name, IsWord w) :
    titleFrom true ((spaced (name.map capitalize)).map Letter.toLower) =
      spaced (name.map capitalize) := by
  induction name with
  | nil => rfl
  | cons w name ih =>
    obtain ⟨hw, hname⟩ := List.forall_mem_cons.mp h
    cases name with
    | nil =>
      have hword := hw.titleFrom_append []
      simpa [spaced, map_toLower_capitalize, titleFrom] using hword
    | cons v name =>
      have hrest := ih hname
      rw [List.map_cons] at hrest
      rw [List.map_cons, List.map_cons, spaced, List.map_append, map_toLower_capitalize,
        hw.titleFrom_append, List.map_cons, titleFrom]
      exact congrArg (capitalize w ++ .char ' ' :: ·) hrest

theorem plain_spaced {name : List (List Letter)} (h : ∀ w ∈ name, IsWord w) :
    ∀ c ∈ spaced (name.map capitalize), c.toNat < 0x80 := by
  induction name with
  | nil => exact nofun
  | cons w name ih =>
    obtain ⟨hw, hname⟩ := List.forall_mem_cons.mp h
    cases name with
    | nil => exact hw.plain_capitalize
    | cons v name =>
      have hspace : ' '.toNat < 0x80 := by decide
      exact List.forall_mem_append.mpr
        ⟨hw.plain_capitalize, List.forall_mem_cons.mpr ⟨hspace, ih hname⟩⟩

theorem toList_titleCase (name : List (List Letter)) :
    (titleCase name).toList = spaced (name.map capitalize) := by
  unfold titleCase
  induction name with
  | nil => rfl
  | cons w name ih =>
    cases name with
    | nil => simp [spaced]
    | cons v name =>
      rw [List.map_cons, List.map_cons, Text.intercalate_cons_cons]
      rw [List.map_cons] at ih
      simp [spaced, ih]

/-- A candidate is its own title. -/
theorem titled_titleCase {name : List (List Letter)} (h : IsName name) :
    titled (titleCase name) = titleCase name := by
  refine Text.ext ?_
  rw [titled, Text.toList_ofList, toList_titleCase, lowerChars_of_plain (plain_spaced h.isWord),
    titleFrom_spaced h.isWord]

end Entities

/-- A text has the same small letters as a candidate just if the candidate is its title. -/
theorem lower_eq_lower_iff_of_mem_entities {limit : Int} {text tag : Text}
    (h : tag ∈ entities limit text) (s : Text) :
    Text.lower s = Text.lower tag ↔ Text.titled s = tag := by
  obtain ⟨name, hname, rfl⟩ := exists_name_of_mem_entities h
  exact Text.lower_eq_lower_iff (Entities.titled_titleCase hname.toIsName)

end Notebook
