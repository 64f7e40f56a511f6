import Notebook.Proofs.Decimal.Nearest

/-!
# Single precision

Rounding to single precision once is enough: what comes out has no bits below the last place of a
single, and such a double is left as it is.
-/

namespace Notebook.Decimal

/-! ### Putting doubles together -/

theorem log2_mul_pow {q : ℕ} (hq : 0 < q) (k : ℕ) : (q * 2 ^ k).log2 = q.log2 + k := by
  have hne : q * 2 ^ k ≠ 0 := by positivity
  have h1 := Nat.log2_self_le hq.ne'
  have h2 := @Nat.lt_log2_self q
  refine le_antisymm (Nat.lt_succ_iff.mp ((Nat.log2_lt hne).mpr ?_)) ((Nat.le_log2 hne).mpr ?_)
  · rw [show (q.log2 + k).succ = q.log2 + 1 + k by omega, pow_add]
    gcongr
  · rw [pow_add]
    gcongr

theorem divEven_mul_self (q : ℕ) {d : ℕ} (hd : 0 < d) : divEven (q * d) d = q :=
  divEven_eq hd (by omega) (by omega) (by omega)

theorem divEven_le {n d k : ℕ} (hd : 0 < d) (h : n < k * d) : divEven n d ≤ k := by
  have : n / d < k := (Nat.div_lt_iff_lt_mul hd).mpr h
  unfold divEven
  simp only
  split
  · omega
  · split
    · omega
    · split <;> omega

theorem bits_assemble {q : ℕ} (hq : 0 < q) {p : ℤ} {negative : Bool}
    (hf : Fits (q * 2 ^ (52 - q.log2)) (p + q.log2 - 52)) (hlog : q.log2 ≤ 52) :
    (assemble negative q p).toBits.toNat =
      bitsOf negative (q * 2 ^ (52 - q.log2)) (p + q.log2 - 52) := by
  have hlt := hf.bits_lt
  have hlow := hf.low
  have h52 : 2 ^ 52 ≤ q * 2 ^ (52 - q.log2) := by
    have h := log2_mul_pow hq (52 - q.log2)
    rw [show q.log2 + (52 - q.log2) = 52 by omega] at h
    have := Nat.log2_self_le (n := q * 2 ^ (52 - q.log2)) (by positivity)
    rwa [h] at this
  unfold assemble
  simp only
  rw [if_neg hq.ne']
  generalize q * 2 ^ (52 - q.log2) = m at *
  have hsign : (if negative then 2 ^ 63 else 0 : ℕ) = negative.toNat * 2 ^ 63 := by
    cases negative <;> simp
  have hsum : (if negative then 2 ^ 63 else 0 : ℕ) + (p + q.log2 + 1023).toNat * 2 ^ 52 +
      (m - 2 ^ 52) = bitsOf negative m (p + q.log2 - 52) := by
    rw [hsign]
    unfold bitsOf
    omega
  rw [hsum]
  exact hf.toBits_ofBits negative

theorem parts_assemble {q : ℕ} (hq : 0 < q) {p : ℤ} (negative : Bool)
    (hf : Fits (q * 2 ^ (52 - q.log2)) (p + q.log2 - 52)) (hlog : q.log2 ≤ 52) :
    parts (assemble negative q p) =
      .finite negative (q * 2 ^ (52 - q.log2)) (p + q.log2 - 52) :=
  parts_of_bits hf (bits_assemble hq hf hlog)

/-- A double in full width is put together again from a part of its mantissa and a higher
exponent. -/
theorem assemble_eq {x : Float} {negative : Bool} {q k : ℕ} {e : ℤ} (hq : 0 < q)
    (hk : q.log2 + k = 52) (hx : parts x = .finite negative (q * 2 ^ k) e) :
    assemble negative q (e + k) = x := by
  have hk' : 52 - q.log2 = k := by omega
  have he : e + k + q.log2 - 52 = e := by omega
  have hf := (parts_eq_finite hx).1
  refine eq_of_parts (parts_assemble hq negative ?_ (by omega)) ?_
  · rw [hk', he]
    exact hf
  · rw [hk', he]
    exact hx

/-! ### Single precision -/

/-- A double whose mantissa has no bits below the last place of a single is not rounded. -/
theorem toSingle_eq_self {x : Float} {negative : Bool} {q k : ℕ} {e : ℤ} (hq : 0 < q)
    (hk : q.log2 + k = 52) (hx : parts x = .finite negative (q * 2 ^ k) e)
    (hplace : singlePlace (e + 52) = e + k) (hmax : ¬ (104 < e + k ∨ (e + k = 104 ∧ 2 ^ 24 ≤ q))) :
    toSingle x = x := by
  have hlog : (q * 2 ^ k).log2 = 52 := by rw [log2_mul_pow hq, hk]
  unfold toSingle
  split
  · next h => cases hx.symm.trans h
  · next h => cases hx.symm.trans h
  · next h =>
    cases hx.symm.trans h
    simp only
    rw [hlog]
    have hcast : ((52 : ℕ) : ℤ) = 52 := rfl
    rw [hcast, hplace]
    have hsub : (e + (k : ℤ) - e).toNat = k := by omega
    rw [hsub, divEven_mul_self q (by positivity), if_neg hmax]
    split
    · rfl
    · exact assemble_eq hq hk hx

/-- How a finite double is rounded to single precision. -/
theorem toSingle_cases {x : Float} {negative : Bool} {m : ℕ} {e : ℤ}
    (hx : parts x = .finite negative m e) :
    toSingle x = x ∨ toSingle x = infinity negative ∨
      ∃ n place, n ≤ 2 ^ 24 ∧ -149 ≤ place ∧ ¬ (104 < place ∨ (place = 104 ∧ 2 ^ 24 ≤ n)) ∧
        toSingle x = assemble negative n place := by
  unfold toSingle
  split
  · next h => cases hx.symm.trans h
  · next h => cases hx.symm.trans h
  · next h =>
    cases hx.symm.trans h
    simp only
    split
    · exact .inl rfl
    · next hlt =>
      split
      · exact .inr (.inl rfl)
      · next hmax =>
        refine .inr (.inr ⟨_, _, ?_, le_max_right _ _, hmax, rfl⟩)
        refine divEven_le (by positivity) ?_
        rw [← pow_add]
        refine lt_of_lt_of_le Nat.lt_log2_self (Nat.pow_le_pow_right (by norm_num) ?_)
        unfold singlePlace at hlt ⊢
        omega

theorem toSingle_assemble {n : ℕ} {place : ℤ} (negative : Bool) (hn : n ≤ 2 ^ 24)
    (hlow : -149 ≤ place) (hmax : ¬ (104 < place ∨ (place = 104 ∧ 2 ^ 24 ≤ n))) :
    toSingle (assemble negative n place) = assemble negative n place := by
  rcases Nat.eq_zero_or_pos n with rfl | hpos
  · have hzero : assemble negative 0 place = assemble negative 0 0 := by
      simp only [assemble, if_true]
    rw [hzero]
    cases negative <;> decide +kernel
  · have h1 := Nat.log2_self_le hpos.ne'
    have h2 := @Nat.lt_log2_self n
    have htop : n.log2 ≤ 24 := Nat.lt_succ_iff.mp ((Nat.log2_lt hpos.ne').mpr (by omega))
    have hwide := log2_mul_pow hpos (52 - n.log2)
    have hne : n * 2 ^ (52 - n.log2) ≠ 0 := by positivity
    have hf : Fits (n * 2 ^ (52 - n.log2)) (place + n.log2 - 52) :=
      ⟨(Nat.log2_lt hne).mp (by omega), by omega, by omega, .inl ((Nat.le_log2 hne).mp (by omega))⟩
    have hparts := parts_assemble hpos negative hf (by omega)
    rcases Nat.lt_or_ge n.log2 24 with hlt | hge
    · -- the last place of the single may be lower than that of `n`, so zeros are put behind it
      obtain ⟨k, hk⟩ : ∃ k : ℕ, singlePlace (place + n.log2 - 52 + 52) =
          place + n.log2 - 52 + k := by
        refine ⟨(singlePlace (place + n.log2 - 52 + 52) - (place + n.log2 - 52)).toNat, ?_⟩
        unfold singlePlace
        omega
      have hk52 : n.log2 + (52 - n.log2 - k) + k = 52 := by
        unfold singlePlace at hk
        omega
      have hsplit : n * 2 ^ (52 - n.log2) = n * 2 ^ (52 - n.log2 - k) * 2 ^ k := by
        rw [mul_assoc, ← pow_add]
        congr 2
        omega
      rw [hsplit] at hparts
      refine toSingle_eq_self (by positivity) ?_ hparts hk ?_
      · rw [log2_mul_pow hpos, hk52]
      · rintro (h | ⟨h, hq⟩)
        · unfold singlePlace at hk
          omega
        · have h0 : 52 - n.log2 - k = 0 := by
            unfold singlePlace at hk
            omega
          rw [h0, pow_zero, mul_one] at hq
          unfold singlePlace at hk
          omega
    · have h24 : n.log2 = 24 := by omega
      have hn24 : n = 2 ^ 24 := le_antisymm hn (h24 ▸ h1)
      rw [h24] at hparts
      have hsplit : n * 2 ^ (52 - 24) = 2 ^ 23 * 2 ^ 29 := by rw [hn24]; norm_num
      rw [hsplit] at hparts
      refine toSingle_eq_self (by positivity) ?_ hparts ?_ ?_
      · rw [Nat.log2_two_pow]
      · unfold singlePlace
        push_cast
        omega
      · rintro (h | ⟨-, h⟩)
        · push_cast at h
          omega
        · exact absurd h (by norm_num)

theorem toSingle_of_nan {x : Float} (hx : parts x = .nan) : toSingle x = nan := by
  unfold toSingle
  split
  · rfl
  · next h => cases hx.symm.trans h
  · next h => cases hx.symm.trans h

theorem toSingle_of_infinite {x : Float} {negative : Bool} (hx : parts x = .infinite negative) :
    toSingle x = infinity negative := by
  unfold toSingle
  split
  · next h => cases hx.symm.trans h
  · next h =>
    cases hx.symm.trans h
    rfl
  · next h => cases hx.symm.trans h

theorem toSingle_infinity (negative : Bool) : toSingle (infinity negative) = infinity negative :=
  toSingle_of_infinite (by cases negative <;> decide)

/-- A single is not rounded again. -/
theorem toSingle_toSingle (x : Float) : toSingle (toSingle x) = toSingle x := by
  cases hx : parts x with
  | nan => rw [toSingle_of_nan hx, toSingle_of_nan (by decide)]
  | infinite negative => rw [toSingle_of_infinite hx, toSingle_infinity]
  | finite negative m e =>
    rcases toSingle_cases hx with h | h | ⟨n, place, hn, hlow, hmax, h⟩
    · rw [h, h]
    · rw [h, toSingle_infinity]
    · rw [h, toSingle_assemble negative hn hlow hmax]

end Notebook.Decimal
