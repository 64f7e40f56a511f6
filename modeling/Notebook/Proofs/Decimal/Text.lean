import Mathlib.Data.List.Induction
import Notebook.Decimal.Numeral
import Notebook.Proofs.Decimal.Shortest

/-!
# Doubles written and read

A finite double is written as a numeral, with a plain point or with a power of ten.  The numeral
has the value of the shortest decimal, which rounds to the double, so it is read back as the
double.
-/

namespace Notebook.Decimal

/-! ### Digits -/

/-- Nothing but plain digits. -/
def Digits (ds : List Char) : Prop := ∀ c ∈ ds, c.isDigit = true

theorem digits_append {ds es : List Char} : Digits (ds ++ es) ↔ Digits ds ∧ Digits es := by
  simp only [Digits, List.mem_append]
  exact ⟨fun h => ⟨fun c hc => h c (.inl hc), fun c hc => h c (.inr hc)⟩,
    fun h c hc => hc.elim (h.1 c) (h.2 c)⟩

theorem digits_zeros (n : ℕ) : Digits (zeros n) := by
  intro c hc
  rw [List.eq_of_mem_replicate hc]
  rfl

theorem digits_toDigits (n : ℕ) : Digits (Nat.toDigits 10 n) := fun _ hc =>
  Nat.isDigit_of_mem_toDigits (by norm_num) (by norm_num) hc

/-- Digits end where something else begins. -/
theorem span_digits {ds r : List Char} (hd : Digits ds) (hr : ∀ c ∈ r.head?, c.isDigit = false) :
    (ds ++ r).takeWhile Char.isDigit = ds ∧ (ds ++ r).dropWhile Char.isDigit = r := by
  rw [List.takeWhile_append_of_pos hd, List.dropWhile_append_of_pos hd]
  cases r with
  | nil => simp
  | cons c r =>
    have hc := hr c rfl
    simp [hc]

theorem natOfDigits_append (ds es : List Char) :
    natOfDigits (ds ++ es) = natOfDigits ds * 10 ^ es.length + natOfDigits es := by
  show Nat.ofDigitChars 10 (ds ++ es) 0 = Nat.ofDigitChars 10 ds 0 * 10 ^ es.length +
    Nat.ofDigitChars 10 es 0
  rw [Nat.ofDigitChars_append, Nat.ofDigitChars_eq_ofDigitChars_zero, Nat.mul_comm]

theorem natOfDigits_zeros (n : ℕ) : natOfDigits (zeros n) = 0 := by
  show Nat.ofDigitChars 10 (List.replicate n '0') 0 = 0
  rw [Nat.ofDigitChars_replicate_zero, Nat.mul_zero]

theorem natOfDigits_toDigits (n : ℕ) : natOfDigits (Nat.toDigits 10 n) = n :=
  Nat.ofDigitChars_ten_toDigits

/-- Digits before a point: a zero alone, or digits that begin with another one. -/
structure Leading (ds : List Char) : Prop where
  digits : Digits ds
  head : ∃ d r, ds = d :: r ∧ d ≠ '0'

theorem leading_append {ds es : List Char} (h : Leading ds) (he : Digits es) :
    Leading (ds ++ es) := by
  obtain ⟨hd, d, r, rfl, hne⟩ := h
  exact ⟨digits_append.mpr ⟨hd, he⟩, d, r ++ es, rfl, hne⟩

theorem leading_toDigits {n : ℕ} (hn : 0 < n) : Leading (Nat.toDigits 10 n) := by
  refine ⟨digits_toDigits n, ?_⟩
  induction n using Nat.strongRecOn with
  | ind n ih =>
    rcases Nat.lt_or_ge n 10 with hlt | hge
    · have hne : ∀ k < 10, 0 < k → k.digitChar ≠ '0' := by decide
      exact ⟨n.digitChar, [], Nat.toDigits_of_lt_base hlt, hne n hlt hn⟩
    · obtain ⟨d, r, hr, hd⟩ := ih (n / 10) (by omega) (by omega)
      refine ⟨d, r ++ [(n % 10).digitChar], ?_, hd⟩
      rw [Nat.toDigits_of_base_le (by norm_num) hge, hr]
      rfl

/-- Digits with the zeros at their end cut off. -/
theorem exists_zeros (ds : List Char) :
    ∃ k, ds = (ds.reverse.dropWhile (· == '0')).reverse ++ zeros k := by
  induction ds using List.reverseRecOn with
  | nil => exact ⟨0, rfl⟩
  | append_singleton ds c ih =>
    rw [List.reverse_concat]
    by_cases hc : c = '0'
    · subst hc
      obtain ⟨k, hk⟩ := ih
      refine ⟨k + 1, ?_⟩
      rw [List.dropWhile_cons_of_pos rfl, zeros, List.replicate_succ', ← List.append_assoc]
      exact congrArg (· ++ ['0']) hk
    · refine ⟨0, ?_⟩
      rw [List.dropWhile_cons_of_neg (by simpa using hc)]
      simp [zeros]

/-! ### Spellings -/

namespace Numeral

/-- The number that a numeral stands for. -/
def value (n : Numeral) : ℚ :=
  natOfDigits (n.whole ++ n.fraction) * 10 ^ (n.exponent - n.fraction.length)

/-- The fraction with its point, if there is one. -/
def fractionText (f : List Char) : List Char := if f = [] then [] else '.' :: f

/-- The spellings that are written for numerals. -/
inductive Spelled : Numeral → List Char → Prop
  | pointed {w f : List Char} (hw : w = ['0'] ∨ Leading w) (hf : Digits f) (hne : f ≠ []) :
    Spelled ⟨w, f, 0⟩ (w ++ '.' :: f)
  | scientific {w f p : List Char} (hw : Leading w) (hf : Digits f) (hp : Digits p) (hne : p ≠ [])
      (negative : Bool) :
    Spelled ⟨w, f, if negative then -(natOfDigits p : ℤ) else natOfDigits p⟩
      (w ++ fractionText f ++ 'e' :: (if negative then '-' else '+') :: p)

end Numeral

theorem pointed_spelled {ds : List Char} (h : Leading ds) (whole : ℤ) :
    ∃ n, Numeral.Spelled n (pointed ds whole) ∧
      n.value = natOfDigits ds * 10 ^ (whole - ds.length) := by
  have hne : ds ≠ [] := by
    obtain ⟨-, d, r, rfl, -⟩ := h
    exact List.cons_ne_nil d r
  unfold pointed
  split
  · next hle =>
    have hz := digits_append.mpr ⟨digits_zeros (-whole).toNat, h.digits⟩
    refine ⟨⟨['0'], zeros (-whole).toNat ++ ds, 0⟩, .pointed (.inl rfl) hz (by simp [hne]), ?_⟩
    have hlen : (0 : ℤ) - ((zeros (-whole).toNat ++ ds).length : ℕ) = whole - ds.length := by
      simp only [zeros, List.length_append, List.length_replicate]
      push_cast
      omega
    have hnat : natOfDigits (['0'] ++ (zeros (-whole).toNat ++ ds)) = natOfDigits ds := by
      rw [natOfDigits_append, natOfDigits_append, natOfDigits_zeros]
      simp [natOfDigits]
    simp only [Numeral.value, hlen, hnat]
  · split
    · next hpos hlen =>
      have hlead := leading_append h (digits_zeros (whole.toNat - ds.length))
      refine ⟨⟨ds ++ zeros (whole.toNat - ds.length), ['0'], 0⟩,
        .pointed (.inr hlead) (digits_zeros 1) (by simp), ?_⟩
      have hexp : whole - (ds.length : ℤ) = ((whole.toNat - ds.length : ℕ) : ℤ) := by omega
      have hnat : natOfDigits (ds ++ zeros (whole.toNat - ds.length) ++ ['0']) =
          natOfDigits ds * 10 ^ (whole.toNat - ds.length) * 10 := by
        rw [natOfDigits_append, natOfDigits_append, natOfDigits_zeros]
        simp [natOfDigits, zeros]
      simp only [Numeral.value, hnat, hexp, zpow_natCast]
      push_cast
      simp
    · next hpos hlen =>
      have htake : whole.toNat ≤ ds.length := by omega
      obtain ⟨hd, d, r, hdr, hd0⟩ := h
      have hsplit := List.take_append_drop whole.toNat ds
      have hboth := digits_append.mp (hsplit ▸ hd)
      have hlead : Leading (ds.take whole.toNat) := by
        refine ⟨hboth.1, d, r.take (whole.toNat - 1), ?_, hd0⟩
        rw [hdr, List.take_cons (by omega)]
      refine ⟨⟨ds.take whole.toNat, ds.drop whole.toNat, 0⟩,
        .pointed (.inr hlead) hboth.2 ?_, ?_⟩
      · rw [ne_eq, List.drop_eq_nil_iff]
        exact hlen
      · have hexp : (0 : ℤ) - ((ds.drop whole.toNat).length : ℕ) = whole - ds.length := by
          rw [List.length_drop]
          omega
        simp only [Numeral.value, hexp, hsplit]

theorem digits_exponent (power : ℕ) :
    let p := Nat.toDigits 10 power
    let q := if p.length < 2 then '0' :: p else p
    Digits q ∧ q ≠ [] ∧ natOfDigits q = power := by
  have hp := digits_toDigits power
  have hn := natOfDigits_toDigits power
  simp only
  split
  · refine ⟨?_, List.cons_ne_nil _ _, ?_⟩
    · exact digits_append.mpr ⟨digits_zeros 1, hp⟩
    · show natOfDigits (['0'] ++ Nat.toDigits 10 power) = _
      rw [natOfDigits_append, hn]
      simp [natOfDigits]
  · exact ⟨hp, Nat.toDigits_ne_nil, hn⟩

theorem scientific_spelled {ds : List Char} (h : Leading ds) (power : ℤ) :
    ∃ n, Numeral.Spelled n (scientific ds power) ∧
      n.value = natOfDigits ds * 10 ^ (power + 1 - ds.length) := by
  obtain ⟨hq, hqne, hqn⟩ := digits_exponent power.natAbs
  obtain ⟨hd, d, r, rfl, hd0⟩ := h
  have hboth := digits_append.mp (show Digits ([d] ++ r) from hd)
  have hlead : Leading [d] := ⟨hboth.1, d, [], rfl, hd0⟩
  have hexp : (if decide (power < 0) then -(power.natAbs : ℤ) else power.natAbs) = power := by
    by_cases hlt : power < 0
    · rw [decide_eq_true hlt, if_pos rfl]
      omega
    · rw [decide_eq_false hlt, if_neg Bool.false_ne_true]
      omega
  have htext : scientific (d :: r) power = [d] ++ Numeral.fractionText r ++
      'e' :: (if decide (power < 0) then '-' else '+') ::
        (let p := Nat.toDigits 10 power.natAbs
        if p.length < 2 then '0' :: p else p) := by
    cases r <;> simp [scientific, Numeral.fractionText]
  have hs := Numeral.Spelled.scientific hlead hboth.2 hq hqne (decide (power < 0))
  rw [hqn, hexp] at hs
  refine ⟨⟨[d], r, power⟩, htext ▸ hs, ?_⟩
  have hlen : power - (r.length : ℤ) = power + 1 - ((d :: r).length : ℕ) := by
    rw [List.length_cons]
    push_cast
    omega
  simp only [Numeral.value, hlen]
  rfl

/-- The digits of `c · 10 ^ place` are written as a numeral of the same value. -/
theorem digits_spelled (s : Style) {c : ℕ} (hc : 0 < c) (place : ℤ) :
    ∃ n, Numeral.Spelled n (s.digits c place) ∧ n.value = c * 10 ^ place := by
  obtain ⟨k, hk⟩ := exists_zeros (Nat.toDigits 10 c)
  obtain ⟨hd, d, r, hdr, hd0⟩ := leading_toDigits hc
  have hval := natOfDigits_toDigits c
  unfold Style.digits
  simp only
  generalize ((Nat.toDigits 10 c).reverse.dropWhile (· == '0')).reverse = ds at *
  have hlead : Leading ds := by
    cases ds with
    | nil =>
      rw [hdr, List.nil_append] at hk
      have : d ∈ zeros k := hk ▸ List.mem_cons_self
      exact absurd (List.eq_of_mem_replicate this) hd0
    | cons x xs =>
      rw [hk] at hd hdr
      obtain ⟨rfl, -⟩ := List.cons.inj hdr
      exact ⟨(digits_append.mp hd).1, x, xs, rfl, hd0⟩
  have hc' : (natOfDigits ds : ℚ) * 10 ^ (place + k) = c * 10 ^ place := by
    rw [hk, natOfDigits_append, natOfDigits_zeros] at hval
    rw [← hval, zpow_add₀ (by norm_num), zpow_natCast]
    simp only [zeros, List.length_replicate]
    push_cast
    ring
  have hlen : (Nat.toDigits 10 c).length = ds.length + k := by
    rw [hk, List.length_append]
    simp [zeros]
  generalize hp : place + ((Nat.toDigits 10 c).length : ℤ) - 1 = power
  have hpow : power + 1 - (ds.length : ℤ) = place + k := by omega
  split
  · obtain ⟨n, hn, hv⟩ := pointed_spelled hlead (power + 1)
    rw [hpow, hc'] at hv
    exact ⟨n, hn, hv⟩
  · obtain ⟨n, hn, hv⟩ := scientific_spelled hlead power
    rw [hpow, hc'] at hv
    exact ⟨n, hn, hv⟩

/-! ### Numerals that round to a double -/

theorem Rounds.lt_pow {m : ℕ} {e : ℤ} {x : ℚ} (h : Rounds m e x) (hf : Fits m e) :
    x < 10 ^ (400 : ℤ) := by
  have hm : (m : ℚ) + 1 ≤ 2 ^ 53 := by exact_mod_cast hf.mantissa
  have h342 : ((2 : ℚ) ^ 3) ^ 342 ≤ 10 ^ 342 := by
    gcongr
    norm_num
  calc x ≤ (m + 1 / 2) * 2 ^ e := h.high
    _ < 2 ^ 53 * 2 ^ e := by gcongr; linarith
    _ ≤ 2 ^ 53 * 2 ^ (971 : ℤ) :=
        mul_le_mul_of_nonneg_left (zpow_le_zpow_right₀ (by norm_num) hf.high) (by norm_num)
    _ ≤ (2 ^ 3) ^ 342 := by
        rw [← pow_mul, zpow_ofNat, ← pow_add]
        exact pow_le_pow_right₀ (by norm_num) (by norm_num)
    _ ≤ 10 ^ 342 := h342
    _ ≤ 10 ^ (400 : ℤ) := by
        rw [zpow_ofNat]
        exact pow_le_pow_right₀ (by norm_num) (by norm_num)

theorem Rounds.pow_lt {m : ℕ} {e : ℤ} {x : ℚ} (h : Rounds m e x) (hf : Fits m e) (hm : 0 < m) :
    (10 : ℚ) ^ (-400 : ℤ) < x := by
  have h1 : (1 : ℚ) ≤ m := by exact_mod_cast hm
  have h2 := reach_le m e
  have h60 : (10 : ℚ) ^ (-340 : ℤ) = 10 ^ (60 : ℤ) * 10 ^ (-400 : ℤ) := by
    rw [← zpow_add₀ (by norm_num)]
    rfl
  have hpos : (0 : ℚ) < 10 ^ (-400 : ℤ) := by positivity
  calc (10 : ℚ) ^ (-400 : ℤ) < 1 / 2 * (10 ^ (60 : ℤ) * 10 ^ (-400 : ℤ)) := by
        rw [← mul_assoc]
        exact lt_mul_of_one_lt_left hpos (by norm_num)
    _ = 1 / 2 * 10 ^ (-340 : ℤ) := by rw [h60]
    _ ≤ 1 / 2 * (m * 2 ^ e) := by gcongr; exact pow_le_of_fits hf hm
    _ = (1 / 2 * m) * 2 ^ e := by ring
    _ ≤ (m - reach m e) * 2 ^ e := by gcongr; linarith
    _ ≤ x := h.low

/-- A numeral that rounds to a double is read as this double. -/
theorem toFloat_of_rounds {n : Numeral} {m : ℕ} {e : ℤ} (hf : Fits m e) (hm : 0 < m)
    (h : Rounds m e n.value) : n.toFloat = Float.ofBits (UInt64.ofNat (bitsOf false m e)) := by
  have hpos := h.pos hm
  have hlt := h.lt_pow hf
  have hgt := h.pow_lt hf hm
  unfold Numeral.value at h hpos hlt hgt
  unfold Numeral.toFloat
  simp only
  generalize natOfDigits (n.whole ++ n.fraction) = k at *
  generalize n.exponent - (n.fraction.length : ℤ) = p at *
  have hk : 0 < k := by
    rcases Nat.eq_zero_or_pos k with rfl | hk
    · simp at hpos
    · exact hk
  have hlen : 0 < (Nat.toDigits 10 k).length := Nat.length_toDigits_pos
  have hhigh := (Nat.length_toDigits_le_iff (n := k) (by norm_num : 1 < 10) hlen).mp le_rfl
  have hlow := pow_length_toDigits_le hk
  generalize (Nat.toDigits 10 k).length = l at *
  have h10 : (1 : ℚ) < 10 := by norm_num
  have hp : (0 : ℚ) < 10 ^ p := by positivity
  have hsize1 : ¬ 400 < p + (l : ℤ) := by
    intro hbig
    have : (10 : ℚ) ^ (400 : ℤ) ≤ k * 10 ^ p :=
      calc (10 : ℚ) ^ (400 : ℤ) ≤ 10 ^ (((l - 1 : ℕ) : ℤ) + p) :=
            zpow_le_zpow_right₀ h10.le (by omega)
        _ = (10 ^ (l - 1) : ℕ) * 10 ^ p := by
            rw [zpow_add₀ (by norm_num), zpow_natCast]
            push_cast
            rfl
        _ ≤ k * 10 ^ p := by gcongr
    exact absurd hlt (not_lt.mpr this)
  have hsize2 : ¬ p + (l : ℤ) < -400 := by
    intro hsmall
    have : (k : ℚ) * 10 ^ p ≤ 10 ^ (-400 : ℤ) :=
      calc (k : ℚ) * 10 ^ p ≤ (10 ^ l : ℕ) * 10 ^ p := by gcongr
        _ = 10 ^ ((l : ℤ) + p) := by
            rw [zpow_add₀ (by norm_num), zpow_natCast]
            push_cast
            rfl
        _ ≤ 10 ^ (-400 : ℤ) := zpow_le_zpow_right₀ h10.le (by omega)
    exact absurd hgt (not_lt.mpr this)
  have hval : ((k * 10 ^ p.toNat : ℕ) : ℚ) / ((10 ^ (-p).toNat : ℕ) : ℚ) = k * 10 ^ p := by
    have h := zpow_eq_div 10 p
    rw [Nat.cast_ofNat] at h
    rw [h]
    push_cast
    ring
  rw [if_neg hk.ne', if_neg hsize1, if_neg hsize2]
  exact nearest_eq hf hm (by positivity) (by positivity) (hval ▸ h)

/-- A minus sign in front turns the sign of a double. -/
theorem withSign_ofBits {m : ℕ} {e : ℤ} {negative : Bool} {x : Float}
    (hx : parts x = .finite negative m e) :
    withSign negative (Float.ofBits (UInt64.ofNat (bitsOf false m e))) = x := by
  obtain ⟨hf, hbits⟩ := parts_eq_finite hx
  have hlt := hf.bits_lt
  have hfalse : bitsOf false m e = (e + 1074).toNat * 2 ^ 52 + m := by simp [bitsOf]
  have hpos := hf.toBits_ofBits false
  refine eq_of_toBits_toNat ?_
  cases negative with
  | false => exact hpos.trans hbits.symm
  | true =>
    refine (toBits_neg hpos (by omega)).trans ?_
    rw [hbits, hfalse, bitsOf, Bool.toNat_true, one_mul]

/-! ### The text of a double -/

theorem toFloat_zero : Numeral.toFloat ⟨['0'], ['0'], 0⟩ =
    Float.ofBits (UInt64.ofNat (bitsOf false 0 (-1074))) := rfl

theorem text_of_zero (s : Style) {x : Float} {negative : Bool} {e : ℤ}
    (hx : parts x = .finite negative 0 e) :
    s.text x = (if negative then ['-'] else []) ++ ['0', '.', '0'] := by
  unfold Style.text
  split
  · next h => cases hx.symm.trans h
  · next h => cases hx.symm.trans h
  · next h =>
    cases hx.symm.trans h
    rw [if_pos rfl]

theorem text_of_pos (s : Style) {x : Float} {negative : Bool} {m : ℕ} {e : ℤ} (hm : 0 < m)
    (hx : parts x = .finite negative m e) {c : ℕ} {place : ℤ} (hs : shortest m e = (c, place)) :
    s.text x = (if negative then ['-'] else []) ++ s.digits c place := by
  unfold Style.text
  split
  · next h => cases hx.symm.trans h
  · next h => cases hx.symm.trans h
  · next h =>
    cases hx.symm.trans h
    rw [if_neg hm.ne', hs]

/-- A finite double is written as a numeral, with its sign in front, and reading the numeral gives
the double back. -/
theorem text_spelled (s : Style) {x : Float} {negative : Bool} {m : ℕ} {e : ℤ}
    (hx : parts x = .finite negative m e) :
    ∃ n cs, s.text x = (if negative then ['-'] else []) ++ cs ∧ Numeral.Spelled n cs ∧
      withSign negative n.toFloat = x := by
  have hf := (parts_eq_finite hx).1
  rcases Nat.eq_zero_or_pos m with rfl | hm
  · obtain rfl : e = -1074 := hf.full.resolve_left (by norm_num)
    refine ⟨⟨['0'], ['0'], 0⟩, ['0', '.', '0'], text_of_zero s hx,
      .pointed (.inl rfl) (digits_zeros 1) (by simp), ?_⟩
    rw [toFloat_zero]
    exact withSign_ofBits hx
  · have hr := rounds_shortest hf hm
    cases hs : shortest m e with
    | mk c place =>
      rw [hs] at hr
      have hc : 0 < c := by
        rcases Nat.eq_zero_or_pos c with rfl | hc
        · have := hr.pos hm
          rw [Nat.cast_zero, zero_mul] at this
          exact absurd this (lt_irrefl 0)
        · exact hc
      obtain ⟨n, hn, hv⟩ := digits_spelled s hc place
      refine ⟨n, _, text_of_pos s hm hx hs, hn, ?_⟩
      rw [toFloat_of_rounds hf hm (hv ▸ hr)]
      exact withSign_ofBits hx

end Notebook.Decimal
