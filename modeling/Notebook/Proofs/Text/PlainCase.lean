import Notebook.Proofs.Text.Words
import Notebook.Text.WordChar
import Notebook.Text.Lowercase

/-!
# The case of plain letters

The letters from A to Z and from a to z are no blanks and no digits, and a text has the same small
letters whether it is written in the one or in the other: they also decide alike whether a capital
sigma beside them is the last letter of its word.
-/

namespace Notebook.Text

def capitals : List Char := "ABCDEFGHIJKLMNOPQRSTUVWXYZ".toList

/-- The plain letters of both cases. -/
def letters : List Char := capitals ++ capitals.map Char.toLower

/-- The text with its plain capitals as small letters.  All other letters stay. -/
def uncapped (s : Text) : Text := ofList (s.toList.map Letter.toLower)

@[simp] theorem toList_uncapped (s : Text) : (uncapped s).toList = s.toList.map Letter.toLower :=
  rfl

/-! ### Letters -/

theorem toLower_eq_self_or_mem (l : Letter) : l.toLower = l ∨ ∃ c ∈ capitals, l = .char c := by
  cases l with
  | half n => exact .inl rfl
  | char c =>
    by_cases hc : 'A' ≤ c ∧ c ≤ 'Z'
    · right
      have hmem := forall_of_toNat_lt (n := 91)
        (P := fun l => 'A' ≤ l → l ∈ capitals.map Letter.char) (by decide) (c := .char c)
        (Nat.lt_succ_of_le hc.2) hc.1
      obtain ⟨d, hd, heq⟩ := List.mem_map.mp hmem
      exact ⟨d, hd, heq.symm⟩
    · left
      exact congrArg Letter.char (dif_neg hc)

/-- What does not change at a capital does not change at all.  The capitals are listed and not
quantified over, so that the hypothesis is decided on them alone. -/
theorem toLower_congr {β : Type} {f : Letter → β}
    (h : capitals.map (fun c => f (.char c.toLower)) = capitals.map (f <| .char ·)) (l : Letter) :
    f l.toLower = f l := by
  rcases toLower_eq_self_or_mem l with hl | ⟨c, hc, rfl⟩
  · rw [hl]
  · exact List.map_inj_left.mp h c hc

theorem isBlank_toLower : ∀ l : Letter, isBlank l.toLower = isBlank l := toLower_congr (by decide)

theorem isSpace_toLower : ∀ l : Letter, isSpace l.toLower = isSpace l := toLower_congr (by decide)

theorem isCased_toLower : ∀ l : Letter, isCased l.toLower = isCased l :=
  toLower_congr (by decide)

theorem isPassedOver_toLower : ∀ l : Letter, isPassedOver l.toLower = isPassedOver l :=
  toLower_congr (by decide)

theorem lowerChar_toLower : ∀ l : Letter, lowerChar l.toLower = lowerChar l :=
  toLower_congr (by decide)

theorem toUpper_toLower : ∀ l : Letter, l.toLower.toUpper = l.toUpper := toLower_congr (by decide)

theorem toLower_toLower : ∀ l : Letter, l.toLower.toLower = l.toLower := toLower_congr (by decide)

theorem toLower_toUpper (l : Letter) : l.toUpper.toLower = l.toLower := by
  cases l with
  | half n => rfl
  | char c =>
    by_cases hc : 'a' ≤ c ∧ c ≤ 'z'
    · exact forall_of_toNat_lt (n := 123)
        (P := fun l => 'a' ≤ l → l.toUpper.toLower = l.toLower) (by decide) (c := .char c)
        (Nat.lt_succ_of_le hc.2) hc.1
    · rw [Letter.toUpper, show c.toUpper = c from dif_neg hc]

theorem toUpper_toUpper (l : Letter) : l.toUpper.toUpper = l.toUpper := by
  rw [← toUpper_toLower l.toUpper, toLower_toUpper, toUpper_toLower]

/-- A character that is no plain letter is seen just where it was. -/
theorem toLower_eq_iff {d : Char} (h : d ∉ letters) (l : Letter) :
    l.toLower = .char d ↔ l = .char d := by
  rcases toLower_eq_self_or_mem l with hl | ⟨c, hc, rfl⟩
  · rw [hl]
  · have hcapital : c ≠ d := fun he => h (List.mem_append_left _ (he ▸ hc))
    have hsmall : c.toLower ≠ d := fun he =>
      h (List.mem_append_right _ (List.mem_map.mpr ⟨c, hc, he⟩))
    simp only [Letter.toLower, Letter.char.injEq, hcapital, hsmall]

/-! ### Small letters -/

theorem casedAhead_map_toLower (cs : List Letter) :
    casedAhead (cs.map Letter.toLower) = casedAhead cs := by
  have hpassed : (fun c => !isPassedOver c) ∘ Letter.toLower = fun c => !isPassedOver c :=
    funext fun c => congrArg not (isPassedOver_toLower c)
  have hcased : isCased ∘ Letter.toLower = isCased := funext isCased_toLower
  unfold casedAhead
  rw [List.find?_map, hpassed, Option.map_map, hcased]

theorem lowerAt_toLower (cased : Bool) (c : Letter) (cs : List Letter) :
    lowerAt cased c.toLower (cs.map Letter.toLower) = lowerAt cased c cs := by
  have hsigma : c.toLower = 'Σ' ↔ c = 'Σ' := toLower_eq_iff (by decide) c
  have hdot : c.toLower = 'İ' ↔ c = 'İ' := toLower_eq_iff (by decide) c
  simp only [lowerAt, hsigma, hdot, casedAhead_map_toLower, lowerChar_toLower]

theorem lowerFrom_map_toLower (cased : Bool) (cs : List Letter) :
    lowerFrom cased (cs.map Letter.toLower) = lowerFrom cased cs := by
  induction cs generalizing cased with
  | nil => rfl
  | cons c cs ih =>
    have hafter : casedAfter cased c.toLower = casedAfter cased c := by
      rw [casedAfter, isPassedOver_toLower, isCased_toLower]
      rfl
    rw [List.map_cons, lowerFrom_cons, lowerFrom_cons, lowerAt_toLower, hafter, ih]

theorem lowerChars_map_toLower (cs : List Letter) :
    lowerChars (cs.map Letter.toLower) = lowerChars cs := lowerFrom_map_toLower false cs

theorem lower_uncapped (s : Text) : lower (uncapped s) = lower s := by
  rw [lower, toList_uncapped, lowerChars_map_toLower]
  rfl

/-! ### Texts -/

theorem words_uncapped (s : Text) : words (uncapped s) = (words s).map uncapped := by
  rw [words, toList_uncapped, wordsOf_map isBlank_toLower]
  simp [words, uncapped, Function.comp_def]

theorem uncapped_append (s t : Text) : uncapped (s ++ t) = uncapped s ++ uncapped t :=
  Text.ext List.map_append

theorem uncapped_intercalate (ss : List Text) :
    uncapped (Text.intercalate " " ss) = Text.intercalate " " (ss.map uncapped) := by
  induction ss with
  | nil => rfl
  | cons s ss ih =>
    cases ss with
    | nil => simp
    | cons t ss =>
      rw [List.map_cons, List.map_cons, Text.intercalate_cons_cons, Text.intercalate_cons_cons,
        uncapped_append, uncapped_append, ih]
      rfl

end Notebook.Text
