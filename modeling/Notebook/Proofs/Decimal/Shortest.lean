import Notebook.Decimal.Shortest
import Notebook.Proofs.Decimal.Nearest

/-!
# Shortest decimals round back

The decimal that is written for a double lies among the numbers that round to it: it was taken
only if it does, and with seventeen digits the nearer neighbour always does.
-/

namespace Notebook.Decimal

theorem pow_length_toDigits_le {n : ℕ} (hn : 0 < n) :
    10 ^ ((Nat.toDigits 10 n).length - 1) ≤ n := by
  by_contra hlt
  rcases Nat.eq_zero_or_pos ((Nat.toDigits 10 n).length - 1) with h0 | h0
  · rw [h0] at hlt
    omega
  · have := (Nat.length_toDigits_le_iff (by norm_num) h0).mpr (Nat.lt_of_not_le hlt)
    omega

/-! ### Ratios -/

namespace Ratio

def toRat (r : Ratio) : ℚ := r.num / r.den

theorem den_ofBinary_pos (n : ℕ) (e : ℤ) : 0 < (ofBinary n e).den := by
  unfold ofBinary
  split <;> positivity

theorem toRat_ofBinary (n : ℕ) (e : ℤ) : (ofBinary n e).toRat = n * 2 ^ e := by
  unfold ofBinary toRat
  have h := zpow_eq_div 2 e
  rw [Nat.cast_ofNat] at h
  rw [h]
  split
  · next he =>
    have : (-e).toNat = 0 := by omega
    rw [this]
    push_cast
    simp
  · next he =>
    have : e.toNat = 0 := by omega
    rw [this]
    push_cast
    simp [div_eq_mul_inv]

theorem den_scaled_pos {r : Ratio} (hr : 0 < r.den) (e : ℤ) : 0 < (r.scaled e).den := by
  unfold scaled
  split
  · exact Nat.mul_pos hr (by positivity)
  · exact hr

theorem toRat_scaled (r : Ratio) (e : ℤ) : (r.scaled e).toRat = r.toRat / 10 ^ e := by
  unfold scaled toRat
  have h := zpow_eq_div 10 e
  rw [Nat.cast_ofNat] at h
  rw [h]
  split
  · next he =>
    have : (-e).toNat = 0 := by omega
    rw [this]
    push_cast
    field_simp
  · next he =>
    have : e.toNat = 0 := by omega
    rw [this]
    push_cast
    field_simp

theorem le_natCast_iff {r : Ratio} (hr : 0 < r.den) (c : ℕ) :
    r.toRat ≤ c ↔ r.num ≤ c * r.den := by
  have hr' : (0 : ℚ) < r.den := by exact_mod_cast hr
  unfold toRat
  rw [div_le_iff₀ hr']
  norm_cast

theorem natCast_le_iff {r : Ratio} (hr : 0 < r.den) (c : ℕ) :
    (c : ℚ) ≤ r.toRat ↔ c * r.den ≤ r.num := by
  have hr' : (0 : ℚ) < r.den := by exact_mod_cast hr
  unfold toRat
  rw [le_div_iff₀ hr']
  norm_cast

/-- The first digit of a ratio stands at its magnitude. -/
theorem pow_magnitudeFrom_le {r : Ratio} (hr : 0 < r.den) {k : ℕ}
    (h : (10 : ℚ) ^ (-k : ℤ) ≤ r.toRat) : (10 : ℚ) ^ r.magnitudeFrom k ≤ r.toRat := by
  have hr' : (0 : ℚ) < r.den := by exact_mod_cast hr
  unfold magnitudeFrom
  generalize hq : r.num * 10 ^ k / r.den = q
  have hle : (q : ℚ) ≤ r.toRat * 10 ^ k := by
    have : q * r.den ≤ r.num * 10 ^ k := by
      rw [← hq]
      exact Nat.div_mul_le_self _ _
    unfold toRat
    rw [div_mul_eq_mul_div, le_div_iff₀ hr']
    exact_mod_cast this
  have hq1 : 1 ≤ q := by
    have : (1 : ℚ) ≤ r.toRat * 10 ^ k := by
      have h := mul_le_mul_of_nonneg_right h (by positivity : (0 : ℚ) ≤ 10 ^ k)
      rwa [zpow_neg, zpow_natCast, inv_mul_cancel₀ (by positivity)] at h
    have : r.den ≤ r.num * 10 ^ k := by
      unfold toRat at this
      rw [div_mul_eq_mul_div, le_div_iff₀ hr', one_mul] at this
      exact_mod_cast this
    rw [← hq]
    exact Nat.div_pos this hr
  have hlen := pow_length_toDigits_le hq1
  have hpos : 0 < (Nat.toDigits 10 q).length := Nat.length_toDigits_pos
  generalize (Nat.toDigits 10 q).length = l at *
  have h10 : (10 : ℚ) ^ ((l : ℤ) - (k + 1)) * 10 ^ k = 10 ^ (l - 1) := by
    rw [← zpow_natCast (10 : ℚ) k, ← zpow_add₀ (by norm_num), ← zpow_natCast]
    congr 1
    omega
  have : (10 : ℚ) ^ ((l : ℤ) - (k + 1)) * 10 ^ k ≤ r.toRat * 10 ^ k := by
    rw [h10]
    refine le_trans ?_ hle
    exact_mod_cast hlen
  exact le_of_mul_le_mul_right this (by positivity)

theorem pow_magnitude_le {r : Ratio} (hr : 0 < r.den) (h : (10 : ℚ) ^ (-340 : ℤ) ≤ r.toRat) :
    (10 : ℚ) ^ r.magnitude ≤ r.toRat := pow_magnitudeFrom_le hr h

end Ratio

theorem neighbours_near {r : Ratio} (hr : 0 < r.den) :
    |r.toRat - (neighbours r).1| ≤ 1 / 2 := by
  have hr' : (0 : ℚ) < r.den := by exact_mod_cast hr
  have hdiv : r.den * (r.num / r.den) + r.num % r.den = r.num := Nat.div_add_mod _ _
  have hmod : r.num % r.den < r.den := Nat.mod_lt _ hr
  have hval : r.toRat = (r.num / r.den : ℕ) + ((r.num % r.den : ℕ) : ℚ) / r.den := by
    unfold Ratio.toRat
    rw [div_eq_iff hr'.ne', add_mul, div_mul_cancel₀ _ hr'.ne']
    have : (r.num : ℚ) = r.den * (r.num / r.den : ℕ) + (r.num % r.den : ℕ) := by
      exact_mod_cast hdiv.symm
    linarith
  unfold neighbours
  simp only
  generalize r.num / r.den = q at *
  generalize r.num % r.den = k at *
  have hk0 : (0 : ℚ) ≤ k / r.den := by positivity
  have hk1 : (k : ℚ) / r.den < 1 := by
    rw [div_lt_one hr']
    exact_mod_cast hmod
  rw [hval, abs_le]
  split
  · next h =>
    have : (k : ℚ) / r.den ≤ 1 / 2 := by
      rw [div_le_iff₀ hr']
      have : 2 * k ≤ r.den := by omega
      have : (2 : ℚ) * k ≤ r.den := by exact_mod_cast this
      linarith
    constructor <;> linarith
  · next h =>
    have : 1 / 2 ≤ (k : ℚ) / r.den := by
      rw [le_div_iff₀ hr']
      have : r.den ≤ 2 * k := by omega
      have : (r.den : ℚ) ≤ 2 * k := by exact_mod_cast this
      linarith
    push_cast
    constructor <;> linarith

/-! ### Decimals that round to a double -/

variable {m : ℕ} {e : ℤ}

theorem interval_low (hm : 0 < m) : ((interval m e).1 : ℚ) = 4 * (m - reach m e) := by
  unfold interval reach
  simp only
  split
  · rw [Nat.cast_sub (by omega)]
    push_cast
    ring
  · rw [Nat.cast_sub (by omega)]
    push_cast
    ring

theorem quarter (x : ℚ) (e : ℤ) : 4 * x * 2 ^ (e - 2) = x * 2 ^ e := by
  have : (2 : ℚ) ^ e = 2 ^ (e - 2) * 4 := by
    rw [zpow_sub₀ (by norm_num)]
    norm_num
  rw [this]
  ring

theorem roundsTo_iff (hm : 0 < m) (c : ℕ) (place : ℤ) :
    roundsTo m e c place = true ↔ Rounds m e (c * 10 ^ place) := by
  have h10 : (0 : ℚ) < 10 ^ place := by positivity
  have hl := Ratio.den_scaled_pos (Ratio.den_ofBinary_pos (interval m e).1 (e - 2)) place
  have hh := Ratio.den_scaled_pos (Ratio.den_ofBinary_pos (interval m e).2.1 (e - 2)) place
  have hlow : (((Ratio.ofBinary (interval m e).1 (e - 2)).scaled place)).toRat =
      (m - reach m e) * 2 ^ e / 10 ^ place := by
    rw [Ratio.toRat_scaled, Ratio.toRat_ofBinary, interval_low hm, quarter]
  have hhigh : (((Ratio.ofBinary (interval m e).2.1 (e - 2)).scaled place)).toRat =
      (m + 1 / 2) * 2 ^ e / 10 ^ place := by
    have : ((interval m e).2.1 : ℚ) = 4 * (m + 1 / 2) := by
      show ((4 * m + 2 : ℕ) : ℚ) = _
      push_cast
      ring
    rw [Ratio.toRat_scaled, Ratio.toRat_ofBinary, this, quarter]
  have h1 := Ratio.le_natCast_iff hl c
  have h2 := Ratio.natCast_le_iff hl c
  have h3 := Ratio.le_natCast_iff hh c
  have h4 := Ratio.natCast_le_iff hh c
  rw [hlow, div_le_iff₀ h10] at h1
  rw [hlow, le_div_iff₀ h10] at h2
  rw [hhigh, div_le_iff₀ h10] at h3
  rw [hhigh, le_div_iff₀ h10] at h4
  have hends : (interval m e).2.2 = decide (m % 2 = 0) := rfl
  unfold roundsTo
  simp only [hends, Bool.and_eq_true]
  by_cases heven : m % 2 = 0
  · simp only [heven, decide_true, if_true, decide_eq_true_eq, ← h1, ← h4]
    exact ⟨fun h => ⟨h.1, h.2, fun _ => heven⟩, fun h => ⟨h.low, h.high⟩⟩
  · simp only [heven, decide_false, Bool.false_eq_true, if_false, decide_eq_true_eq, ← Nat.not_le,
      ← h2, ← h3]
    constructor
    · rintro ⟨hlt, hgt⟩
      refine ⟨(not_le.mp hlt).le, (not_le.mp hgt).le, ?_⟩
      rintro (h | h)
      · exact absurd h.le hlt
      · exact absurd h.ge hgt
    · intro h
      refine ⟨fun hle => heven (h.inside (.inl ?_)), fun hge => heven (h.inside (.inr ?_))⟩
      · exact le_antisymm hle h.low
      · exact le_antisymm h.high hge

/-- What lies close enough rounds to the double. -/
theorem Rounds.of_near {x : ℚ} (hm : m < 2 ^ 53)
    (h : |m * 2 ^ e - x| * (2 * 10 ^ 16) ≤ m * 2 ^ e) : Rounds m e x := by
  have h2e : (0 : ℚ) < 2 ^ e := by positivity
  have hreach : (m : ℚ) < reach m e * (2 * 10 ^ 16) := by
    unfold reach
    split
    · next h =>
      rw [h.1]
      norm_num
    · have : (m : ℚ) < 2 ^ 53 := by exact_mod_cast hm
      refine this.trans ?_
      norm_num
  have hnear : |m * 2 ^ e - x| < reach m e * 2 ^ e := by
    have : |m * 2 ^ e - x| * (2 * 10 ^ 16) < reach m e * 2 ^ e * (2 * 10 ^ 16) :=
      calc |m * 2 ^ e - x| * (2 * 10 ^ 16) ≤ m * 2 ^ e := h
        _ < reach m e * (2 * 10 ^ 16) * 2 ^ e := by gcongr
        _ = reach m e * 2 ^ e * (2 * 10 ^ 16) := by ring
    exact lt_of_mul_lt_mul_right this (by norm_num)
  obtain ⟨h1, h2⟩ := abs_lt.mp hnear
  have hhalf : reach m e * 2 ^ e ≤ 1 / 2 * 2 ^ e := by
    gcongr
    exact reach_le m e
  refine ⟨by linarith, by linarith, ?_⟩
  rintro (h | h) <;> exfalso <;> linarith

theorem pow_le_of_fits (hf : Fits m e) (hm : 0 < m) : (10 : ℚ) ^ (-340 : ℤ) ≤ m * 2 ^ e := by
  have h1 : (1 : ℚ) ≤ m := by exact_mod_cast hm
  have h47 : ((2 : ℚ) ^ 23) ^ 47 ≤ (10 ^ 7) ^ 47 := by
    gcongr
    norm_num
  have h2 : (2 : ℚ) ^ (-1074 : ℤ) = 2 ^ (7 : ℤ) / (2 ^ 23) ^ 47 := by
    rw [← pow_mul, ← zpow_natCast, ← zpow_sub₀ (by norm_num)]
    rfl
  have h10 : (10 : ℚ) ^ (-340 : ℤ) = 10 ^ (-11 : ℤ) / (10 ^ 7) ^ 47 := by
    rw [← pow_mul, ← zpow_natCast, ← zpow_sub₀ (by norm_num)]
    rfl
  calc (10 : ℚ) ^ (-340 : ℤ) = 10 ^ (-11 : ℤ) / (10 ^ 7) ^ 47 := h10
    _ ≤ 2 ^ (7 : ℤ) / (2 ^ 23) ^ 47 := by
        gcongr
        norm_num
    _ = 2 ^ (-1074 : ℤ) := h2.symm
    _ ≤ 2 ^ e := zpow_le_zpow_right₀ (by norm_num) hf.low
    _ ≤ m * 2 ^ e := le_mul_of_one_le_left (by positivity) h1

/-- Seventeen digits are enough. -/
theorem roundsTo_seventeen (hf : Fits m e) (hm : 0 < m) {top : ℤ}
    (htop : (10 : ℚ) ^ top ≤ m * 2 ^ e) :
    roundsTo m e (neighbours ((Ratio.ofBinary m e).scaled (top - 16))).1 (top - 16) = true := by
  have h10 : (0 : ℚ) < 10 ^ (top - 16) := by positivity
  have hsplit : (10 : ℚ) ^ top = 10 ^ (top - 16) * 10 ^ 16 := by
    rw [← zpow_natCast, ← zpow_add₀ (by norm_num)]
    congr 1
    push_cast
    omega
  have hnear := neighbours_near (Ratio.den_scaled_pos (Ratio.den_ofBinary_pos m e) (top - 16))
  rw [Ratio.toRat_scaled, Ratio.toRat_ofBinary] at hnear
  rw [roundsTo_iff hm]
  generalize (neighbours ((Ratio.ofBinary m e).scaled (top - 16))).1 = c at *
  refine Rounds.of_near hf.mantissa ?_
  have hscale : m * 2 ^ e - c * (10 : ℚ) ^ (top - 16) =
      (m * 2 ^ e / 10 ^ (top - 16) - c) * 10 ^ (top - 16) := by
    field_simp
  rw [hscale, abs_mul, abs_of_pos h10]
  calc |m * 2 ^ e / (10 : ℚ) ^ (top - 16) - c| * 10 ^ (top - 16) * (2 * 10 ^ 16)
      ≤ 1 / 2 * 10 ^ (top - 16) * (2 * 10 ^ 16) := by gcongr
    _ = 10 ^ top := by rw [hsplit]; ring
    _ ≤ m * 2 ^ e := htop

theorem decimalAt?_ne_none {place : ℤ}
    (h : roundsTo m e (neighbours ((Ratio.ofBinary m e).scaled place)).1 place = true) :
    decimalAt? m e place ≠ none := by
  unfold decimalAt?
  simp only
  rw [if_pos h]
  exact Option.some_ne_none _

theorem roundsTo_of_decimalAt? {place : ℤ} {p : ℕ × ℤ} (h : decimalAt? m e place = some p) :
    roundsTo m e p.1 p.2 = true := by
  unfold decimalAt? at h
  simp only at h
  split at h
  · next hr =>
    cases h
    exact hr
  · split at h
    · next hr =>
      cases h
      exact hr
    · cases h

theorem pow_magnitude_ofBinary_le (hf : Fits m e) (hm : 0 < m) :
    (10 : ℚ) ^ (Ratio.ofBinary m e).magnitude ≤ m * 2 ^ e := by
  have hval := Ratio.toRat_ofBinary m e
  have h := Ratio.pow_magnitude_le (Ratio.den_ofBinary_pos m e)
  rw [hval] at h
  exact h (pow_le_of_fits hf hm)

theorem shortest_eq (m : ℕ) (e : ℤ) : ∃ top, top = (Ratio.ofBinary m e).magnitude ∧
    shortest m e = ((List.range 17).findSome? fun (k : ℕ) => decimalAt? m e (top - k)).getD
      ((neighbours ((Ratio.ofBinary m e).scaled (top - 16))).1, top - 16) :=
  ⟨_, rfl, rfl⟩

/-- The shortest decimal of a double rounds to it. -/
theorem rounds_shortest (hf : Fits m e) (hm : 0 < m) :
    Rounds m e ((shortest m e).1 * 10 ^ (shortest m e).2) := by
  have hmag := pow_magnitude_ofBinary_le hf hm
  obtain ⟨top, htop, hs⟩ := shortest_eq m e
  rw [← htop] at hmag
  rw [← roundsTo_iff hm, hs]
  clear hs htop
  cases h : (List.range 17).findSome? fun (k : ℕ) => decimalAt? m e (top - k) with
  | none =>
    have h16 := List.findSome?_eq_none_iff.mp h 16 (List.mem_range.mpr (by norm_num))
    exact absurd h16 (decimalAt?_ne_none (roundsTo_seventeen hf hm hmag))
  | some p =>
    obtain ⟨k, -, hk⟩ := List.exists_of_findSome?_eq_some h
    exact roundsTo_of_decimalAt? hk

end Notebook.Decimal
