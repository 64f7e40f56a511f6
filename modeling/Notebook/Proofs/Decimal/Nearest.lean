import Mathlib.Algebra.Order.Field.Power
import Mathlib.Algebra.Order.Field.Rat
import Mathlib.Data.Rat.Cast.Order
import Mathlib.Tactic.FieldSimp
import Mathlib.Tactic.Linarith
import Mathlib.Tactic.Positivity
import Notebook.Proofs.Decimal.Bits

/-!
# Rounding to doubles

Around each finite double lie the numbers that round to it: up to the middle between it and its
neighbours, and the middles themselves if the mantissa is even.  `nearest` reads every one of them
as this double.
-/

namespace Notebook.Decimal

theorem zpow_eq_div (b : ℕ) (e : ℤ) :
    (b : ℚ) ^ e = ((b ^ e.toNat : ℕ) : ℚ) / ((b ^ (-e).toNat : ℕ) : ℚ) := by
  rcases le_or_gt 0 e with he | he
  · obtain ⟨n, rfl⟩ := Int.eq_ofNat_of_zero_le he
    simp
  · obtain ⟨n, hn⟩ := Int.eq_ofNat_of_zero_le (show 0 ≤ -e by omega)
    obtain rfl : e = -n := by omega
    simp

/-! ### The nearest whole number -/

theorem divEven_eq {n d k : ℕ} (hd : 0 < d) (low : 2 * (k * d) ≤ 2 * n + d)
    (high : 2 * n ≤ 2 * (k * d) + d)
    (even : 2 * (k * d) = 2 * n + d ∨ 2 * n = 2 * (k * d) + d → k % 2 = 0) :
    divEven n d = k := by
  have hn : d * (n / d) + n % d = n := Nat.div_add_mod n d
  have hr : n % d < d := Nat.mod_lt n hd
  unfold divEven
  simp only
  generalize n / d = q at *
  generalize n % d = r at *
  have hlow : q ≤ k := by
    by_contra hlt
    have : (k + 1) * d ≤ q * d := Nat.mul_le_mul_right d (by omega)
    rw [Nat.add_mul] at this
    rw [Nat.mul_comm d q] at hn
    omega
  have hhigh : k ≤ q + 1 := by
    by_contra hlt
    have : (q + 2) * d ≤ k * d := Nat.mul_le_mul_right d (by omega)
    rw [Nat.add_mul] at this
    rw [Nat.mul_comm d q] at hn
    omega
  rcases Nat.lt_or_ge q k with hqk | hqk
  · obtain rfl : k = q + 1 := by omega
    rw [Nat.add_mul, Nat.mul_comm q d] at low high even
    split
    · omega
    · split
      · rfl
      · split <;> omega
  · obtain rfl : k = q := by omega
    rw [Nat.mul_comm k d] at low high even
    split
    · rfl
    · split
      · omega
      · split <;> omega

theorem divEven_eq_of_rat {n d k : ℕ} (hd : 0 < d) (low : (k : ℚ) - 1 / 2 ≤ n / d)
    (high : (n : ℚ) / d ≤ k + 1 / 2)
    (even : (n : ℚ) / d = k - 1 / 2 ∨ (n : ℚ) / d = k + 1 / 2 → k % 2 = 0) : divEven n d = k := by
  have hd' : (0 : ℚ) < d := by exact_mod_cast hd
  rw [le_div_iff₀ hd'] at low
  rw [div_le_iff₀ hd'] at high
  rw [div_eq_iff hd'.ne', div_eq_iff hd'.ne'] at even
  refine divEven_eq hd ?_ ?_ ?_
  · have : (2 : ℚ) * (k * d) ≤ 2 * n + d := by linarith
    exact_mod_cast this
  · have : (2 : ℚ) * n ≤ 2 * (k * d) + d := by linarith
    exact_mod_cast this
  · rintro (h | h)
    · have : (2 : ℚ) * (k * d) = 2 * n + d := by exact_mod_cast h
      exact even (.inl (by linarith))
    · have : (2 : ℚ) * n = 2 * (k * d) + d := by exact_mod_cast h
      exact even (.inr (by linarith))

/-! ### The highest bit -/

theorem pow_log2_le {n : ℕ} (hn : 0 < n) : (2 : ℚ) ^ (n.log2 : ℤ) ≤ n := by
  rw [zpow_natCast]
  exact_mod_cast Nat.log2_self_le hn.ne'

theorem lt_pow_log2 (n : ℕ) : (n : ℚ) < 2 ^ ((n.log2 : ℤ) + 1) := by
  have : ((n.log2 : ℤ) + 1) = ((n.log2 + 1 : ℕ) : ℤ) := by push_cast; rfl
  rw [this, zpow_natCast]
  exact_mod_cast Nat.lt_log2_self

theorem topBit_spec {num den : ℕ} (hn : 0 < num) (hd : 0 < den) :
    (2 : ℚ) ^ topBit num den ≤ num / den ∧ (num : ℚ) / den < 2 ^ (topBit num den + 1) := by
  have hd' : (0 : ℚ) < den := by exact_mod_cast hd
  have hn1 := pow_log2_le hn
  have hn2 := lt_pow_log2 num
  have hd1 := pow_log2_le hd
  have hd2 := lt_pow_log2 den
  have h2 : (2 : ℚ) ≠ 0 := by norm_num
  unfold topBit
  simp only
  generalize hk : (num.log2 : ℤ) - den.log2 = k
  have hnum : (num.log2 : ℤ) = k + den.log2 := by omega
  have hcond : den * 2 ^ k.toNat ≤ num * 2 ^ (-k).toNat ↔ (2 : ℚ) ^ k ≤ num / den := by
    have h := zpow_eq_div 2 k
    have hp : (0 : ℚ) < ((2 ^ (-k).toNat : ℕ) : ℚ) := by positivity
    rw [Nat.cast_ofNat] at h
    rw [h, div_le_div_iff₀ hp hd', mul_comm ((2 ^ k.toNat : ℕ) : ℚ)]
    norm_cast
  rw [hnum] at hn1 hn2
  split
  · next h =>
    refine ⟨hcond.mp h, ?_⟩
    rw [div_lt_iff₀ hd']
    calc (num : ℚ) < 2 ^ (k + den.log2 + 1) := hn2
      _ = 2 ^ (k + 1) * 2 ^ (den.log2 : ℤ) := by rw [← zpow_add₀ h2]; congr 1; ring
      _ ≤ 2 ^ (k + 1) * den := by gcongr
  · next h =>
    rw [hcond, not_le] at h
    refine ⟨?_, by rwa [sub_add_cancel]⟩
    rw [le_div_iff₀ hd']
    calc (2 : ℚ) ^ (k - 1) * den ≤ 2 ^ (k - 1) * 2 ^ ((den.log2 : ℤ) + 1) := by gcongr
      _ = 2 ^ (k + den.log2) := by rw [← zpow_add₀ h2]; congr 1; ring
      _ ≤ num := hn1

theorem topBit_eq {num den : ℕ} (hn : 0 < num) (hd : 0 < den) {k : ℤ}
    (low : (2 : ℚ) ^ k ≤ num / den) (high : (num : ℚ) / den < 2 ^ (k + 1)) :
    topBit num den = k := by
  obtain ⟨h1, h2⟩ := topBit_spec hn hd
  have h3 := (zpow_lt_zpow_iff_right₀ (by norm_num : (1 : ℚ) < 2)).mp (low.trans_lt h2)
  have h4 := (zpow_lt_zpow_iff_right₀ (by norm_num : (1 : ℚ) < 2)).mp (h1.trans_lt high)
  omega

/-! ### The nearest double -/

/-- How far the numbers that round to `m · 2 ^ e` reach below it, in units of `2 ^ e`.  Below a
power of two the doubles lie twice as close. -/
def reach (m : ℕ) (e : ℤ) : ℚ := if m = 2 ^ 52 ∧ -1074 < e then 1 / 4 else 1 / 2

/-- The numbers that round to `m · 2 ^ e`; the ends are among them if `m` is even. -/
structure Rounds (m : ℕ) (e : ℤ) (x : ℚ) : Prop where
  low : (m - reach m e) * 2 ^ e ≤ x
  high : x ≤ (m + 1 / 2) * 2 ^ e
  inside : x = (m - reach m e) * 2 ^ e ∨ x = (m + 1 / 2) * 2 ^ e → m % 2 = 0

theorem reach_le (m : ℕ) (e : ℤ) : reach m e ≤ 1 / 2 := by
  unfold reach
  split <;> norm_num

theorem Rounds.pos {m : ℕ} {e : ℤ} {x : ℚ} (h : Rounds m e x) (hm : 0 < m) : 0 < x := by
  have h1 : (1 : ℚ) ≤ m := by exact_mod_cast hm
  have h2 := reach_le m e
  exact lt_of_lt_of_le (mul_pos (by linarith) (by positivity)) h.low

/-- A number that is divided by a power of two. -/
theorem scaled_div (num den : ℕ) (p : ℤ) :
    ((num * 2 ^ (-p).toNat : ℕ) : ℚ) / ((den * 2 ^ p.toNat : ℕ) : ℚ) = num / den / 2 ^ p := by
  have h := zpow_eq_div 2 p
  rw [Nat.cast_ofNat] at h
  rw [h]
  push_cast
  field_simp

theorem divEven_scaled {num den m : ℕ} {e : ℤ} (hd : 0 < den) (hr : Rounds m e (num / den)) :
    divEven (num * 2 ^ (-e).toNat) (den * 2 ^ e.toNat) = m := by
  have h2e : (0 : ℚ) < 2 ^ e := by positivity
  have hreach := reach_le m e
  have hlow : (m : ℚ) - reach m e ≤ num / den / 2 ^ e := (le_div_iff₀ h2e).mpr hr.low
  refine divEven_eq_of_rat (by positivity) ?_ ?_ ?_
  · rw [scaled_div]
    linarith
  · rw [scaled_div]
    exact (div_le_iff₀ h2e).mpr hr.high
  · rw [scaled_div]
    rintro (h | h)
    · have : reach m e = 1 / 2 := by linarith
      refine hr.inside (.inl ?_)
      rw [this, ← h, div_mul_cancel₀ _ h2e.ne']
    · refine hr.inside (.inr ?_)
      rw [← h, div_mul_cancel₀ _ h2e.ne']

/-- Just below a power of two the last place is one lower, and the mantissa is rounded up to the
power. -/
theorem divEven_carry {num den : ℕ} {e : ℤ} (hd : 0 < den)
    (low : ((2 ^ 52 : ℚ) - 1 / 4) * 2 ^ e ≤ num / den) (high : (num : ℚ) / den < 2 ^ (e + 52)) :
    divEven (num * 2 ^ (-(e - 1)).toNat) (den * 2 ^ (e - 1).toNat) = 2 ^ 53 := by
  have h2e : (0 : ℚ) < 2 ^ (e - 1) := by positivity
  have he : (2 : ℚ) ^ e = 2 * 2 ^ (e - 1) := by
    rw [mul_comm, ← zpow_add_one₀ (by norm_num), sub_add_cancel]
  have h52 : (2 : ℚ) ^ (e + 52) = 2 ^ 53 * 2 ^ (e - 1) := by
    rw [zpow_add₀ (by norm_num), he]
    norm_cast
    ring
  rw [he] at low
  rw [h52] at high
  refine divEven_eq_of_rat (by positivity) ?_ ?_ fun _ => rfl
  · rw [scaled_div, le_div_iff₀ h2e]
    push_cast
    linarith
  · rw [scaled_div, div_le_iff₀ h2e]
    push_cast
    linarith

/-- A number that rounds to `m · 2 ^ e` is read as this double. -/
theorem nearest_eq {num den m : ℕ} {e : ℤ} (hf : Fits m e) (hm : 0 < m) (hn : 0 < num)
    (hd : 0 < den) (hr : Rounds m e (num / den)) :
    nearest num den = Float.ofBits (UInt64.ofNat (bitsOf false m e)) := by
  have hm3 : (m : ℚ) + 1 ≤ 2 ^ 53 := by exact_mod_cast hf.mantissa
  have h2e : (0 : ℚ) < 2 ^ e := by positivity
  have hx := hr.pos hm
  have hbelow : (num : ℚ) / den < 2 ^ (e + 53) := by
    rw [zpow_add₀ (by norm_num)]
    calc (num : ℚ) / den ≤ (m + 1 / 2) * 2 ^ e := hr.high
      _ < 2 ^ 53 * 2 ^ e := by gcongr; linarith
      _ = 2 ^ e * 2 ^ (53 : ℤ) := by rw [mul_comm]; norm_cast
  have hspec := topBit_spec hn hd
  have hmin : min ((e + 1074).toNat * 2 ^ 52 + m) (2047 * 2 ^ 52) = (e + 1074).toNat * 2 ^ 52 + m :=
    min_eq_left hf.bits_lt.le
  have hbits : bitsOf false m e = (e + 1074).toNat * 2 ^ 52 + m := by simp [bitsOf]
  -- the last place is that of the double, but just below a power of two it is one lower
  by_cases hcarry : -1074 < e ∧ (num : ℚ) / den < 2 ^ (e + 52)
  · obtain ⟨he, hlt⟩ := hcarry
    have hm52 : m = 2 ^ 52 := by
      by_contra hne
      have hgt : 2 ^ 52 + 1 ≤ m := by
        have := hf.full
        omega
      have hgt' : (2 : ℚ) ^ 52 + 1 ≤ m := by exact_mod_cast hgt
      have : (2 : ℚ) ^ 52 * 2 ^ e ≤ num / den := by
        refine le_trans ?_ hr.low
        gcongr
        linarith [reach_le m e]
      rw [zpow_add₀ (by norm_num)] at hlt
      norm_cast at this hlt
      linarith
    have hlow : ((2 ^ 52 : ℚ) - 1 / 4) * 2 ^ e ≤ num / den := by
      have hreach : reach m e = 1 / 4 := if_pos ⟨hm52, he⟩
      have := hr.low
      rw [hreach, hm52] at this
      exact_mod_cast this
    have hplace : doublePlace (topBit num den) = e - 1 := by
      have h51 : (2 : ℚ) ^ (e + 51) ≤ num / den := by
        refine le_trans ?_ hlow
        rw [zpow_add₀ (by norm_num), mul_comm]
        gcongr
        norm_num
      rw [topBit_eq hn hd h51 (by rwa [add_assoc])]
      unfold doublePlace
      omega
    unfold nearest
    simp only
    have hsum : (e - 1 + 1074).toNat * 2 ^ 52 + 2 ^ 53 = (e + 1074).toNat * 2 ^ 52 + m := by omega
    rw [hplace, divEven_carry hd hlow hlt, hsum, hmin, hbits]
  · have hplace : doublePlace (topBit num den) = e := by
      have htop : topBit num den ≤ e + 52 := by
        have := (zpow_lt_zpow_iff_right₀ (by norm_num : (1 : ℚ) < 2)).mp (hspec.1.trans_lt hbelow)
        omega
      unfold doublePlace
      rcases eq_or_lt_of_le hf.low with he | he
      · omega
      · have := le_of_not_gt fun h => hcarry ⟨he, h⟩
        have := (zpow_lt_zpow_iff_right₀ (by norm_num : (1 : ℚ) < 2)).mp (this.trans_lt hspec.2)
        omega
    unfold nearest
    simp only
    rw [hplace, divEven_scaled hd hr, hmin, hbits]

end Notebook.Decimal
