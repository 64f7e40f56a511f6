import Notebook.Proofs.Decimal.Text
import Notebook.Proofs.Json.Text

/-!
# Numbers written and read

A number is read up to the first character that cannot go on with it.  Doubles come back with
every bit, infinite ones and no number among them, and whole numbers do unless they are too long.
-/

namespace Notebook.Json

open Decimal

/-! ### Where a number stops -/

/-- Nothing that could go on with a number. -/
def Stops (r : List Char) : Prop :=
  ∀ c ∈ r.head?, c.isDigit = false ∧ c ≠ '.' ∧ c ≠ 'e' ∧ c ≠ 'E'

theorem stops_nil : Stops [] := by simp [Stops]

theorem stops_cons {c : Char} (h : c.isDigit = false) (hp : c ≠ '.') (he : c ≠ 'e') (hE : c ≠ 'E')
    (r : List Char) : Stops (c :: r) := by
  intro d hd
  obtain rfl : c = d := by simpa using hd
  exact ⟨h, hp, he, hE⟩

/-! ### The parts of a number -/

theorem whole?_append {w r : List Char} (hw : w = ['0'] ∨ Leading w)
    (hr : ∀ c ∈ r.head?, c.isDigit = false) : whole? (w ++ r) = some (w, r) := by
  rcases hw with rfl | ⟨hd, d, t, rfl, hne⟩
  · rfl
  · obtain ⟨h1, h2⟩ := span_digits (fun c hc => hd c (List.mem_cons_of_mem d hc)) hr
    have hdigit : d.isDigit = true := hd d List.mem_cons_self
    rw [List.cons_append, whole?, if_neg hne, if_pos hdigit, h1, h2]

theorem fraction_point {f r : List Char} (hf : Digits f) (hne : f ≠ [])
    (hr : ∀ c ∈ r.head?, c.isDigit = false) : fraction ('.' :: f ++ r) = (f, r) := by
  cases f with
  | nil => exact absurd rfl hne
  | cons d t =>
    obtain ⟨h1, h2⟩ := span_digits (fun c hc => hf c (List.mem_cons_of_mem d hc)) hr
    have hdigit : d.isDigit = true := hf d List.mem_cons_self
    rw [List.cons_append, List.cons_append, fraction, if_pos hdigit, h1, h2]

theorem fraction_of_ne {r : List Char} (hr : ∀ c ∈ r.head?, c ≠ '.') : fraction r = ([], r) := by
  unfold fraction
  split
  · next d t => exact absurd rfl (hr '.' rfl)
  · rfl

theorem exponent_of_ne {r : List Char} (hr : ∀ c ∈ r.head?, c ≠ 'e' ∧ c ≠ 'E') :
    exponent r = (none, r) := by
  cases r with
  | nil => rfl
  | cons c r =>
    obtain ⟨he, hE⟩ := hr c rfl
    rw [exponent, if_neg (not_or.mpr ⟨he, hE⟩)]

theorem exponent_power {p r : List Char} (hp : Digits p) (hne : p ≠ [])
    (hr : ∀ c ∈ r.head?, c.isDigit = false) (negative : Bool) :
    exponent ('e' :: (if negative then '-' else '+') :: (p ++ r)) =
      (some (if negative then -(natOfDigits p : Int) else natOfDigits p), r) := by
  obtain ⟨h1, h2⟩ := span_digits hp hr
  have hsign : splitSign ((if negative then '-' else '+') :: (p ++ r)) = (negative, p ++ r) := by
    cases negative <;> rfl
  have hempty : p.isEmpty = false := by simpa using hne
  rw [exponent, if_pos (.inl rfl), hsign]
  simp only [h1, h2, hempty, Bool.false_eq_true, if_false]

/-! ### Numbers -/

theorem number_of_parts {cs w r f r' r'' : List Char} {power : Option Int}
    (hw : whole? cs = some (w, r)) (hf : fraction r = (f, r')) (hp : exponent r' = (power, r''))
    (negative : Bool) :
    number negative cs =
      if f.isEmpty && power.isNone then
        if maxDigits < w.length then .error (.tooLong w.length)
        else .ok (.int (if negative then -(natOfDigits w : Int) else natOfDigits w), r'')
      else .ok (.float (withSign negative (Numeral.toFloat ⟨w, f, power.getD 0⟩)), r'') := by
  simp only [number, hw, orMalformed, bind, Except.bind, hf, hp]
  rfl

/-- A numeral is read as the double next to it. -/
theorem number_spelled {n : Numeral} {cs r : List Char} (h : n.Spelled cs) (hr : Stops r)
    (negative : Bool) :
    number negative (cs ++ r) = .ok (.float (withSign negative n.toFloat), r) := by
  cases h with
  | @pointed w f hw hf hne =>
    have hwhole : whole? (w ++ '.' :: f ++ r) = some (w, '.' :: f ++ r) := by
      rw [List.append_assoc]
      exact whole?_append hw (by rintro c ⟨⟩; rfl)
    have hfraction := fraction_point hf hne fun c hc => (hr c hc).1
    have hexponent := exponent_of_ne fun c hc => (hr c hc).2.2
    have hempty : f.isEmpty = false := by simpa using hne
    rw [number_of_parts hwhole hfraction hexponent, hempty]
    rfl
  | @scientific w f p hw hf hp hne neg =>
    have hexponent := exponent_power hp hne (fun c hc => (hr c hc).1) neg
    generalize htail : 'e' :: (if neg then '-' else '+') :: (p ++ r) = tail at hexponent
    have htext : w ++ Numeral.fractionText f ++ 'e' :: (if neg then '-' else '+') :: p ++ r =
        w ++ (Numeral.fractionText f ++ tail) := by simp [← htail]
    have hfraction : fraction (Numeral.fractionText f ++ tail) = (f, tail) := by
      unfold Numeral.fractionText
      split
      · next hnil =>
        subst hnil
        exact fraction_of_ne (by rw [← htail]; rintro c ⟨⟩; decide)
      · next hnil => exact fraction_point hf hnil (by rw [← htail]; rintro c ⟨⟩; rfl)
    have hwhole : whole? (w ++ (Numeral.fractionText f ++ tail)) =
        some (w, Numeral.fractionText f ++ tail) := by
      refine whole?_append (.inr hw) ?_
      unfold Numeral.fractionText
      split
      · rw [← htail]
        rintro c ⟨⟩
        rfl
      · rintro c ⟨⟩
        rfl
    rw [htext, number_of_parts hwhole hfraction hexponent, Option.isNone_some, Bool.and_false]
    rfl

/-- Digits without a point are read as a whole number. -/
theorem number_toDigits {n : ℕ} (hn : (Nat.toDigits 10 n).length ≤ maxDigits) {r : List Char}
    (hr : Stops r) (negative : Bool) :
    number negative (Nat.toDigits 10 n ++ r) =
      .ok (.int (if negative then -(n : Int) else n), r) := by
  have hw : Nat.toDigits 10 n = ['0'] ∨ Leading (Nat.toDigits 10 n) := by
    rcases Nat.eq_zero_or_pos n with rfl | hpos
    · exact .inl rfl
    · exact .inr (leading_toDigits hpos)
  have hwhole := whole?_append hw fun c hc => (hr c hc).1
  have hfraction := fraction_of_ne fun c hc => (hr c hc).2.1
  have hexponent := exponent_of_ne fun c hc => (hr c hc).2.2
  rw [number_of_parts hwhole hfraction hexponent, natOfDigits_toDigits]
  exact if_neg (Nat.not_lt.mpr hn)

/-! ### Values without parts -/

theorem named?_of_digit {c : Char} (h : c.isDigit = true) (r : List Char) :
    named? (c :: r) = none := by
  have hne : ∀ d : Char, d.isDigit = false → (d == c) = false := by
    intro d hd
    rw [beq_eq_false_iff_ne]
    rintro rfl
    rw [h] at hd
    cases hd
  simp [named?, after?, List.isPrefixOf, hne]

theorem named?_minus {c : Char} (h : c.isDigit = true) (r : List Char) :
    named? ('-' :: c :: r) = none := by
  have hne : ('I' == c) = false := by
    rw [beq_eq_false_iff_ne]
    rintro rfl
    cases h
  simp [named?, after?, List.isPrefixOf, hne]

theorem atom_signed {cs : List Char} (h : ∃ c t, cs = c :: t ∧ c.isDigit = true) (negative : Bool)
    (r : List Char) :
    atom ((if negative then ['-'] else []) ++ cs ++ r) = number negative (cs ++ r) := by
  obtain ⟨c, t, rfl, hc⟩ := h
  cases negative with
  | true =>
    show atom ('-' :: c :: (t ++ r)) = _
    rw [atom, named?_minus hc]
    rfl
  | false =>
    show atom (c :: (t ++ r)) = _
    rw [atom, named?_of_digit hc]
    · rfl
    · rintro u heq
      cases heq
      cases hc

theorem spelled_head {n : Numeral} {cs : List Char} (h : n.Spelled cs) :
    ∃ c t, cs = c :: t ∧ c.isDigit = true := by
  have hhead {w : List Char} (hw : w = ['0'] ∨ Leading w) (t : List Char) :
      ∃ c u, w ++ t = c :: u ∧ c.isDigit = true := by
    rcases hw with rfl | ⟨hd, d, u, rfl, -⟩
    · exact ⟨'0', t, rfl, rfl⟩
    · exact ⟨d, u ++ t, rfl, hd d List.mem_cons_self⟩
  cases h with
  | pointed hw hf hne => exact hhead hw _
  | scientific hw hf hp hne negative =>
    rw [List.append_assoc]
    exact hhead (.inr hw) _

/-- Every double is read back. -/
theorem atom_text (x : Float) {r : List Char} (hr : Stops r) :
    atom (numberStyle.text x ++ r) = .ok (.float x, r) := by
  cases hx : parts x with
  | nan =>
    have htext : numberStyle.text x = "NaN".toList := by
      unfold Style.text
      split
      · rfl
      · next h => cases hx.symm.trans h
      · next h => cases hx.symm.trans h
    rw [htext, eq_nan_of_parts hx]
    rfl
  | infinite negative =>
    have htext : numberStyle.text x = (if negative then ['-'] else []) ++ "Infinity".toList := by
      unfold Style.text
      split
      · next h => cases hx.symm.trans h
      · next h =>
        cases hx.symm.trans h
        rfl
      · next h => cases hx.symm.trans h
    rw [htext, eq_infinity_of_parts hx]
    cases negative <;> rfl
  | finite negative m e =>
    obtain ⟨n, cs, htext, hspelled, hvalue⟩ := text_spelled numberStyle hx
    rw [htext, atom_signed (spelled_head hspelled), number_spelled hspelled hr, hvalue]

theorem atom_integer {i : Int} (hi : (Nat.toDigits 10 i.natAbs).length ≤ maxDigits)
    {r : List Char} (hr : Stops r) : atom (integer i ++ r) = .ok (.int i, r) := by
  have hhead : ∃ c t, Nat.toDigits 10 i.natAbs = c :: t ∧ c.isDigit = true := by
    cases hd : Nat.toDigits 10 i.natAbs with
    | nil => exact absurd hd Nat.toDigits_ne_nil
    | cons c t => exact ⟨c, t, rfl, digits_toDigits i.natAbs c (hd ▸ List.mem_cons_self)⟩
  have hsign : integer i = (if decide (i < 0) then ['-'] else []) ++ Nat.toDigits 10 i.natAbs := by
    simp [integer]
  rw [hsign, atom_signed hhead, number_toDigits hi hr]
  congr 3
  by_cases h : i < 0
  · rw [decide_eq_true h, if_pos rfl]
    omega
  · rw [decide_eq_false h, if_neg Bool.false_ne_true]
    omega

end Notebook.Json
