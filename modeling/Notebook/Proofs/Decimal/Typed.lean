import Notebook.Decimal.Numeral
import Notebook.Proofs.Text.PlainCase

/-!
# Typed numbers in any case

Only the letter before an exponent and the names of infinity and of no number are letters in a
number, and all of them may be capitals.
-/

namespace Notebook.Decimal

/-! ### Characters -/

theorem toLower_congr {β : Type} {f : Char → β}
    (h : Text.capitals.map (fun c => f c.toLower) = Text.capitals.map f) (c : Char) :
    f c.toLower = f c := by
  rcases Text.toLower_eq_self_or_mem (.char c) with hc | ⟨d, hd, hc⟩
  · rw [Letter.char.inj hc]
  · cases hc
    exact List.map_inj_left.mp h c hd

theorem toLower_eq_iff {d : Char} (h : d ∉ Text.letters) (c : Char) : c.toLower = d ↔ c = d := by
  simpa only [Letter.toLower, Letter.char.injEq] using Text.toLower_eq_iff h (.char c)

theorem isDigit_toLower : ∀ c : Char, c.toLower.isDigit = c.isDigit := toLower_congr (by decide)

theorem digitValue?_toLower : ∀ c : Char, Text.digitValue? c.toLower = Text.digitValue? c :=
  toLower_congr (by decide)

theorem toLower_of_isDigit {c : Char} (h : c.isDigit = true) : c.toLower = c := by
  have hcapitals : Text.capitals.all (fun c => !c.isDigit) = true := by decide
  rcases Text.toLower_eq_self_or_mem (.char c) with hc | ⟨d, hd, hc⟩
  · exact Letter.char.inj hc
  · cases hc
    simpa [h] using List.all_eq_true.mp hcapitals c hd

/-! ### Parts of a text -/

theorem trimBy_map_toLower {p : Char → Bool} (hp : ∀ c : Char, p c.toLower = p c)
    (cs : List Char) :
    Text.trimBy p (cs.map Char.toLower) = (Text.trimBy p cs).map Char.toLower := by
  have hcomp : p ∘ Char.toLower = p := funext hp
  unfold Text.trimBy Text.dropEndWhile
  rw [List.dropWhile_map, hcomp, ← List.map_reverse, List.dropWhile_map, hcomp, List.map_reverse]

theorem plainDigit_toLower (c : Char) : plainDigit c.toLower = (plainDigit c).toLower := by
  have hdigit : ∀ d, (Text.asciiDigit d).toLower = Text.asciiDigit d := by
    intro d
    have hall : ∀ n < 10, (Text.asciiDigit n).toLower = Text.asciiDigit n := by decide
    have hmod : Text.asciiDigit d = Text.asciiDigit (d % 10) := by simp [Text.asciiDigit]
    rw [hmod, hall _ (Nat.mod_lt d (by decide))]
  unfold plainDigit
  rw [digitValue?_toLower]
  cases Text.digitValue? c with
  | none => rfl
  | some d => exact (hdigit d).symm

theorem dropUnderscores?_map_toLower (afterDigit : Bool) (cs : List Char) :
    dropUnderscores? afterDigit (cs.map Char.toLower) =
      (dropUnderscores? afterDigit cs).map (List.map Char.toLower) := by
  have hscore (c : Char) : c.toLower = '_' ↔ c = '_' := toLower_eq_iff (by decide) c
  fun_induction dropUnderscores? afterDigit cs with
  | case1 => rfl
  | case2 afterDigit d r h ih =>
    show dropUnderscores? afterDigit ('_' :: d.toLower :: r.map Char.toLower) = _
    simp only [dropUnderscores?, isDigit_toLower, h, if_true, ih, Option.map_map]
    rfl
  | case3 afterDigit d r h =>
    show dropUnderscores? afterDigit ('_' :: d.toLower :: r.map Char.toLower) = _
    simp only [dropUnderscores?, isDigit_toLower, h, Bool.false_eq_true, if_false, Option.map_none]
  | case4 afterDigit r hend =>
    cases r with
    | nil => rfl
    | cons d r => exact absurd rfl (hend d r rfl)
  | case5 afterDigit c r hend hc ih =>
    have hc' : c.toLower ≠ '_' := mt (hscore c).mp hc
    simp [dropUnderscores?, hc', isDigit_toLower, ih, Function.comp_def]

theorem takeWhile_isDigit_map_toLower (cs : List Char) :
    (cs.map Char.toLower).takeWhile Char.isDigit = cs.takeWhile Char.isDigit := by
  induction cs with
  | nil => rfl
  | cons c cs ih =>
    rw [List.map_cons, List.takeWhile_cons, List.takeWhile_cons, isDigit_toLower, ih]
    split
    · next hc => rw [toLower_of_isDigit hc]
    · rfl

theorem dropWhile_isDigit_map_toLower (cs : List Char) :
    (cs.map Char.toLower).dropWhile Char.isDigit =
      (cs.dropWhile Char.isDigit).map Char.toLower := by
  have hcomp : Char.isDigit ∘ Char.toLower = Char.isDigit := funext isDigit_toLower
  rw [List.dropWhile_map, hcomp]

/-! ### Numbers -/

theorem splitSign_map_toLower (cs : List Char) :
    splitSign (cs.map Char.toLower) =
      ((splitSign cs).1, (splitSign cs).2.map Char.toLower) := by
  cases cs with
  | nil => rfl
  | cons c r =>
    by_cases hminus : c = '-'
    · subst hminus
      rfl
    by_cases hplus : c = '+'
    · subst hplus
      rfl
    have hminus' : c.toLower ≠ '-' := mt (toLower_eq_iff (by decide) c).mp hminus
    have hplus' : c.toLower ≠ '+' := mt (toLower_eq_iff (by decide) c).mp hplus
    simp [splitSign, hminus, hplus, hminus', hplus']

theorem exponent?_map_toLower (cs : List Char) :
    exponent? (cs.map Char.toLower) = exponent? cs := by
  have hall (ds : List Char) : (ds.map Char.toLower).all Char.isDigit = ds.all Char.isDigit := by
    rw [List.all_map]
    exact congrArg ds.all (funext isDigit_toLower)
  unfold exponent?
  rw [splitSign_map_toLower]
  obtain ⟨negative, ds⟩ := splitSign cs
  simp only [List.isEmpty_map, hall]
  split
  · rfl
  · next h =>
    have hdigits : ds.map Char.toLower = ds := by
      simp only [Bool.or_eq_true, Bool.not_eq_true', not_or, Bool.not_eq_false,
        List.all_eq_true] at h
      rw [List.map_congr_left fun c hc => toLower_of_isDigit (h.2 c hc), List.map_id']
    rw [hdigits]

theorem numeral?_map_toLower (cs : List Char) :
    numeral? (cs.map Char.toLower) = numeral? cs := by
  have he (c : Char) : c.toLower = 'e' ∨ c.toLower = 'E' ↔ c = 'e' ∨ c = 'E' := by
    have hcongr := toLower_congr (f := fun c => decide (c = 'e' ∨ c = 'E')) (by decide) c
    simpa only [decide_eq_decide] using hcongr
  unfold numeral?
  rw [takeWhile_isDigit_map_toLower, dropWhile_isDigit_map_toLower]
  cases cs.dropWhile Char.isDigit with
  | nil => rfl
  | cons c r =>
    by_cases hpoint : c = '.'
    · subst hpoint
      simp only [List.map_cons, (by decide : '.'.toLower = '.'), takeWhile_isDigit_map_toLower,
        dropWhile_isDigit_map_toLower]
      congr 1
      cases r.dropWhile Char.isDigit with
      | nil => rfl
      | cons c r => simp only [List.map_cons, he, exponent?_map_toLower]
    · have hpoint' : c.toLower ≠ '.' := mt (toLower_eq_iff (by decide) c).mp hpoint
      simp [hpoint, hpoint', he, exponent?_map_toLower]

theorem asciiLower_map_toLower (cs : List Char) :
    asciiLower (cs.map Char.toLower) = asciiLower cs := by
  rw [asciiLower, List.map_map]
  exact List.map_congr_left fun c _ => toLower_congr (f := Char.toLower) (by decide) c

theorem read?_map_toLower (cs : List Char) : read? (cs.map Char.toLower) = read? cs := by
  simp only [read?, splitSign_map_toLower, asciiLower_map_toLower, numeral?_map_toLower]

/-- A typed number may be in letters of any case. -/
theorem readTyped?_map_toLower (cs : List Char) :
    readTyped? (cs.map Char.toLower) = readTyped? cs := by
  have hplain : plainDigit ∘ Char.toLower = Char.toLower ∘ plainDigit :=
    funext plainDigit_toLower
  have hspace (c : Char) : Text.isSpace c.toLower = Text.isSpace c := Text.isSpace_toLower c
  unfold readTyped?
  rw [trimBy_map_toLower hspace, List.map_map, hplain, ← List.map_map,
    dropUnderscores?_map_toLower, Option.bind_map]
  congr 1
  exact funext read?_map_toLower

theorem chars?_map_toLower (ls : List Letter) :
    Text.chars? (ls.map Letter.toLower) = (Text.chars? ls).map (List.map Char.toLower) := by
  fun_induction Text.chars? ls with
  | case1 => rfl
  | case2 c r ih =>
    show (Text.chars? (r.map Letter.toLower)).map _ = _
    rw [ih, Option.map_map, Option.map_map]
    rfl
  | case3 => rfl

theorem readLetters?_map_toLower (ls : List Letter) :
    readLetters? (ls.map Letter.toLower) = readLetters? ls := by
  rw [readLetters?, chars?_map_toLower, Option.bind_map]
  exact congrArg _ (funext readTyped?_map_toLower)

end Notebook.Decimal
