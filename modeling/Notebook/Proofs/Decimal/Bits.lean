import Mathlib.Logic.Basic
import Mathlib.Tactic.NormNum
import Mathlib.Tactic.Ring
import Notebook.Decimal.Binary

/-!
# The bits of doubles

A double is its word of 64 bits: sign, exponent and mantissa side by side.  Every word but those
for no number is kept as it is, a minus sign turns the first bit over, and `parts` takes the word
apart without loss.  Two doubles that are equal as numbers have one word or are two zeros.
-/

namespace Notebook.Decimal

open Float.Model Float.Model.UnpackedFloat

/-! ### Words -/

theorem finite_congr (s : Sign) {m m' : Nat} {e e' : Int} (hm : 0 < m) (hm' : 0 < m')
    (hmantissa : m = m') (he : e = e') : finite s m e hm = finite s m' e' hm' := by
  subst hmantissa he
  rfl

section

variable (s : Sign) (e : BitVec 11) (m : BitVec 52)

/-- The bits of a double, put together from its sign, its exponent and its mantissa. -/
def word : BitVec 64 := packComponents .binary64 s e m

theorem toNat_word :
    (word s e m).toNat = (s.toBitVec.toNat * 2 ^ 11 + e.toNat) * 2 ^ 52 + m.toNat := by
  show (s.toBitVec ++ e ++ m).toNat = _
  rw [BitVec.toNat_append, ← Nat.shiftLeft_add_eq_or_of_lt m.isLt, BitVec.toNat_append,
    ← Nat.shiftLeft_add_eq_or_of_lt e.isLt, Nat.shiftLeft_eq, Nat.shiftLeft_eq]

theorem toNat_unpackSign (b : BitVec 64) :
    (@unpackSign .binary64 b).toNat = b.toNat / 2 ^ 63 := by
  have := b.isLt
  show (b.extractLsb 63 63).toNat = _
  rw [BitVec.extractLsb_toNat, Nat.shiftRight_eq_div_pow]
  omega

theorem toNat_unpackExponent (b : BitVec 64) :
    (@unpackExponent .binary64 b).toNat = b.toNat / 2 ^ 52 % 2 ^ 11 := by
  simp only [unpackExponent, BitVec.toNat_cast, BitVec.extractLsb_toNat, Nat.shiftRight_eq_div_pow]

theorem toNat_unpackMantissa (b : BitVec 64) :
    (@unpackMantissa .binary64 b).toNat = b.toNat % 2 ^ 52 := by
  simp only [unpackMantissa, BitVec.toNat_cast, BitVec.extractLsb_toNat, Nat.shiftRight_zero]

theorem toBitVec_ofBitVec (b : BitVec 1) : (Sign.ofBitVec b).toBitVec = b := by
  revert b
  decide

/-- Every word is put together from its own parts. -/
theorem exists_word (b : BitVec 64) : ∃ s e m, word s e m = b := by
  refine ⟨.ofBitVec (@unpackSign .binary64 b), @unpackExponent .binary64 b,
    @unpackMantissa .binary64 b, ?_⟩
  apply BitVec.eq_of_toNat_eq
  rw [toNat_word, toBitVec_ofBitVec, toNat_unpackSign, toNat_unpackExponent, toNat_unpackMantissa]
  omega

/-- What a word stands for. -/
def datum : UnpackedFloat :=
  if e = -1#_ then if m = 0#_ then .infinity s else .notANumber
  else if e = 0#_ then
    if h : m = 0#_ then .zero s
    else .finite s m.toNat (-1074) (Nat.pos_of_ne_zero fun h0 => h (BitVec.eq_of_toNat_eq h0))
  else .finite s (2 ^ 52 + m.toNat) (e.toNat - 1075) (by omega)

variable {s e m} in
theorem unpack_eq {b : BitVec 64} (hs : Sign.ofBitVec (@unpackSign .binary64 b) = s)
    (he : @unpackExponent .binary64 b = e) (hm : @unpackMantissa .binary64 b = m) :
    unpack .binary64 b = datum s e m := by
  have happ : (1#1 ++ m).toNat = 2 ^ 52 + m.toNat := by
    rw [BitVec.toNat_append, ← Nat.shiftLeft_add_eq_or_of_lt m.isLt]
    rfl
  subst hs he hm
  unfold UnpackedFloat.unpack datum
  dsimp only
  by_cases hlast : @unpackExponent .binary64 b = -1#_
  · rw [if_pos hlast, if_pos hlast]
  rw [if_neg hlast, if_neg hlast]
  by_cases hzero : @unpackExponent .binary64 b = 0#_
  · rw [if_pos hzero, if_pos hzero]
    by_cases hm : @unpackMantissa .binary64 b = 0#_
    · rw [dif_pos hm, dif_pos hm]
    · rw [dif_neg hm, dif_neg hm]
      refine finite_congr _ _ _ rfl ?_
      rw [hzero]
      rfl
  · rw [if_neg hzero, if_neg hzero]
    exact finite_congr _ _ _ happ rfl

theorem unpack_word : unpack .binary64 (word s e m) = datum s e m := by
  refine unpack_eq ?_ unpackExponent_packComponents unpackMantissa_packComponents
  have hs : @unpackSign .binary64 (word s e m) = s.toBitVec := by
    apply BitVec.eq_of_toNat_eq
    have := e.isLt
    have := m.isLt
    have := s.toBitVec.isLt
    rw [toNat_unpackSign, toNat_word]
    omega
  rw [hs]
  cases s <;> rfl

theorem neg_datum : (datum s e m).neg = datum (-s) e m := by
  unfold datum
  rw [apply_ite UnpackedFloat.neg, apply_ite UnpackedFloat.neg, apply_ite UnpackedFloat.neg,
    apply_dite UnpackedFloat.neg]
  rfl

theorem pack_finite (x : Nat) (k : Int) (hx : 0 < x) :
    UnpackedFloat.pack .binary64 (.finite s x k hx) =
      if 2 ^ 11 ≤ (k + 1023 + 52).toNat + 1 then packedInfinity .binary64 s
      else if x.log2 + 1 = 53 then
        word s (BitVec.ofNat 11 (k + 1023 + 52).toNat) (BitVec.ofNat 52 x)
      else word s 0 (BitVec.ofNat 52 x) := rfl

/-- Packing gives the word back, unless it is one of those for no number. -/
theorem pack_datum (h : e ≠ -1#_ ∨ m = 0#_) :
    UnpackedFloat.pack .binary64 (datum s e m) = word s e m := by
  have hm := m.isLt
  unfold datum
  by_cases he : e = -1#_
  · obtain rfl := h.resolve_left (not_not_intro he)
    subst he
    rfl
  rw [if_neg he]
  by_cases he0 : e = 0#_
  · subst he0
    rw [if_pos rfl]
    by_cases hm0 : m = 0#_
    · subst hm0
      rfl
    · have hlog : ¬ m.toNat.log2 + 1 = 53 := by
        have := (Nat.log2_lt (fun h0 => hm0 (BitVec.eq_of_toNat_eq h0))).mpr hm
        omega
      rw [dif_neg hm0, pack_finite, if_neg (by decide), if_neg hlog, BitVec.ofNat_toNat,
        BitVec.setWidth_eq]
      rfl
  · have hlog : (2 ^ 52 + m.toNat).log2 + 1 = 53 := by
      have h1 := (Nat.le_log2 (by omega)).mpr (Nat.le_add_right (2 ^ 52) m.toNat)
      have h2 := (Nat.log2_lt (n := 2 ^ 52 + m.toNat) (k := 53) (by omega)).mpr (by omega)
      omega
    have hexp : ((e.toNat : Int) - 1075 + 1023 + 52).toNat = e.toNat := by omega
    have hlt : ¬ 2 ^ 11 ≤ e.toNat + 1 := by
      have := e.isLt
      intro hle
      refine he (BitVec.eq_of_toNat_eq ?_)
      show e.toNat = 2047
      omega
    have hmant : BitVec.ofNat 52 (2 ^ 52 + m.toNat) = m := by
      apply BitVec.eq_of_toNat_eq
      rw [BitVec.toNat_ofNat]
      omega
    rw [if_neg he0, pack_finite, hexp, if_neg hlt, if_pos hlog, hmant, BitVec.ofNat_toNat,
      BitVec.setWidth_eq]

end

/-! ### Doubles by their bits -/

theorem exists_word_of_lt {b : Nat} (hb : b < 2 ^ 64) :
    ∃ s e m, (UInt64.ofNat b).toBitVec = word s e m ∧
      (s.toBitVec.toNat * 2 ^ 11 + e.toNat) * 2 ^ 52 + m.toNat = b := by
  obtain ⟨s, e, m, h⟩ := exists_word (UInt64.ofNat b).toBitVec
  refine ⟨s, e, m, h.symm, ?_⟩
  rw [← toNat_word, h]
  exact Nat.mod_eq_of_lt hb

/-- The bits of a word that stands for a number, or for infinity. -/
theorem number_of_bits {s : Sign} {e : BitVec 11} {m : BitVec 52} {b : Nat}
    (h : (s.toBitVec.toNat * 2 ^ 11 + e.toNat) * 2 ^ 52 + m.toNat = b)
    (hb : b % 2 ^ 63 ≤ 2047 * 2 ^ 52) : e ≠ -1#_ ∨ m = 0#_ := by
  have he := e.isLt
  have hs := s.toBitVec.isLt
  have hm := m.isLt
  by_cases h1 : e.toNat = 2047
  · refine .inr (BitVec.eq_of_toNat_eq ?_)
    show m.toNat = 0
    omega
  · refine .inl fun h2 => h1 ?_
    rw [h2]
    rfl

theorem toBits_ofBits {b : Nat} (hb : b < 2 ^ 64) (h : b % 2 ^ 63 ≤ 2047 * 2 ^ 52) :
    (Float.ofBits (UInt64.ofNat b)).toBits.toNat = b := by
  obtain ⟨s, e, m, hw, hn⟩ := exists_word_of_lt hb
  show (UnpackedFloat.pack .binary64 (UnpackedFloat.unpack .binary64
    (UInt64.ofNat b).toBitVec)).toNat = b
  rw [hw, unpack_word, pack_datum s e m (number_of_bits hn h), toNat_word, hn]

theorem ofBits_toBits (x : Float) : Float.ofBits x.toBits = x := by
  obtain ⟨⟨⟨b⟩, hb⟩⟩ := x
  show Float.ofModel (Float.Model.ofBits ⟨b⟩) = _
  have hpack : UnpackedFloat.pack .binary64 (UnpackedFloat.unpack .binary64 b) = b := by
    obtain ⟨s, e, m, rfl⟩ := exists_word b
    rw [unpack_word]
    by_cases h : e ≠ -1#_ ∨ m = 0#_
    · exact pack_datum s e m h
    · rw [not_or, not_not] at h
      have hnan := hb.eq_packedNaN (unpackExponent_packComponents.trans h.1)
        (unpackMantissa_packComponents.trans_ne h.2)
      rw [datum, if_pos h.1, if_neg h.2]
      exact hnan.symm
  unfold Float.Model.ofBits Float.Model.pack
  congr 3

theorem toBits_neg {x : Float} {b : Nat} (hx : x.toBits.toNat = b) (h : b ≤ 2047 * 2 ^ 52) :
    (-x).toBits.toNat = 2 ^ 63 + b := by
  have hlt : b < 2 ^ 64 := by omega
  obtain ⟨s, e, m, hw, hn⟩ := exists_word_of_lt hlt
  have hxw : x.toModel.toBits.toBitVec = word s e m := by
    rw [← hw]
    apply BitVec.eq_of_toNat_eq
    show x.toBits.toNat = _
    rw [hx]
    exact (Nat.mod_eq_of_lt hlt).symm
  show (UnpackedFloat.pack .binary64
    (UnpackedFloat.unpack .binary64 x.toModel.toBits.toBitVec).neg).toNat = _
  have he := e.isLt
  have hm := m.isLt
  have hs : s.toBitVec.toNat = 0 := by
    have := s.toBitVec.isLt
    omega
  have hneg : (-s).toBitVec.toNat = 1 := by
    cases s with
    | negative => cases hs
    | positive => rfl
  rw [hxw, unpack_word, neg_datum, pack_datum _ e m (number_of_bits hn (by omega)), toNat_word,
    hneg]
  rw [hs] at hn
  rw [← hn]
  ring

theorem eq_of_toBits_toNat {x y : Float} (h : x.toBits.toNat = y.toBits.toNat) : x = y := by
  rw [← ofBits_toBits x, ← ofBits_toBits y, UInt64.toNat_inj.mp h]

/-! ### Doubles by their parts -/

/-- The mantissa and the exponent of a finite double. -/
structure Fits (m : Nat) (e : Int) : Prop where
  mantissa : m < 2 ^ 53
  low : -1074 ≤ e
  high : e ≤ 971
  full : 2 ^ 52 ≤ m ∨ e = -1074

/-- The bits of a finite double. -/
def bitsOf (negative : Bool) (m : Nat) (e : Int) : Nat :=
  negative.toNat * 2 ^ 63 + ((e + 1074).toNat * 2 ^ 52 + m)

theorem Fits.bits_lt {m : Nat} {e : Int} (h : Fits m e) :
    (e + 1074).toNat * 2 ^ 52 + m < 2047 * 2 ^ 52 := by
  obtain ⟨h1, h2, h3, h4⟩ := h
  omega

theorem Fits.toBits_ofBits {m : Nat} {e : Int} (h : Fits m e) (negative : Bool) :
    (Float.ofBits (UInt64.ofNat (bitsOf negative m e))).toBits.toNat = bitsOf negative m e := by
  have hlt := h.bits_lt
  have hn : negative.toNat < 2 := negative.toNat_lt
  have hsmall : ∀ n b : Nat, n < 2 → b < 2047 * 2 ^ 52 →
      n * 2 ^ 63 + b < 2 ^ 64 ∧ (n * 2 ^ 63 + b) % 2 ^ 63 ≤ 2047 * 2 ^ 52 := by omega
  obtain ⟨h1, h2⟩ := hsmall _ _ hn hlt
  exact Decimal.toBits_ofBits h1 h2

theorem toNat_decide_sign {b : Nat} (hb : b < 2 ^ 64) :
    (decide (2 ^ 63 ≤ b)).toNat = b / 2 ^ 63 := by
  by_cases h : 2 ^ 63 ≤ b
  · rw [decide_eq_true h, Bool.toNat_true]
    omega
  · rw [decide_eq_false h, Bool.toNat_false]
    omega

theorem parts_eq_finite {x : Float} {negative : Bool} {m : Nat} {e : Int}
    (h : parts x = .finite negative m e) :
    Fits m e ∧ x.toBits.toNat = bitsOf negative m e := by
  have hlt : x.toBits.toNat < 2 ^ 64 := x.toBits.toNat_lt
  unfold parts at h
  unfold bitsOf
  simp only at h
  generalize x.toBits.toNat = b at *
  have hs := toNat_decide_sign hlt
  split at h
  · split at h <;> cases h
  · split at h
    · cases h
      rw [hs]
      exact ⟨⟨by omega, by omega, by omega, .inr rfl⟩, by omega⟩
    · cases h
      rw [hs]
      exact ⟨⟨by omega, by omega, by omega, .inl (by omega)⟩, by omega⟩

theorem parts_of_bits {x : Float} {negative : Bool} {m : Nat} {e : Int} (h : Fits m e)
    (hx : x.toBits.toNat = bitsOf negative m e) : parts x = .finite negative m e := by
  obtain ⟨h1, h2, h3, h4⟩ := h
  have hn : negative.toNat < 2 := negative.toNat_lt
  unfold parts
  unfold bitsOf at hx
  simp only
  generalize x.toBits.toNat = b at *
  have hsign : decide (2 ^ 63 ≤ b) = negative := by
    cases negative with
    | true =>
      rw [Bool.toNat_true] at hx
      exact decide_eq_true (by omega)
    | false =>
      rw [Bool.toNat_false] at hx
      exact decide_eq_false (by omega)
  rw [hsign, if_neg (by omega)]
  split
  · congr 1 <;> omega
  · congr 1 <;> omega

theorem eq_of_parts {x y : Float} {negative : Bool} {m : Nat} {e : Int}
    (hx : parts x = .finite negative m e) (hy : parts y = .finite negative m e) : x = y :=
  eq_of_toBits_toNat ((parts_eq_finite hx).2.trans (parts_eq_finite hy).2.symm)

theorem eq_infinity_of_parts {x : Float} {negative : Bool} (h : parts x = .infinite negative) :
    x = infinity negative := by
  have hb : x.toBits.toNat = negative.toNat * 2 ^ 63 + 2047 * 2 ^ 52 := by
    have hlt : x.toBits.toNat < 2 ^ 64 := x.toBits.toNat_lt
    unfold parts at h
    simp only at h
    generalize x.toBits.toNat = b at *
    have hs := toNat_decide_sign hlt
    split at h
    · split at h
      · cases h
        rw [hs]
        omega
      · cases h
    · split at h <;> cases h
  refine eq_of_toBits_toNat (hb.trans ?_)
  cases negative <;> decide

/-- There is but one double that is no number. -/
theorem eq_nan_of_parts {x : Float} (h : parts x = .nan) : x = nan := by
  have hexp : x.toBits.toNat / 2 ^ 52 % 2 ^ 11 = 2047 ∧ x.toBits.toNat % 2 ^ 52 ≠ 0 := by
    unfold parts at h
    simp only at h
    split at h
    · next he =>
      split at h
      · cases h
      · next hf => exact ⟨he, hf⟩
    · split at h <;> cases h
  refine eq_of_toBits_toNat ?_
  have hb := x.toModel.valid.eq_packedNaN ?_ ?_
  · show x.toModel.toBits.toBitVec.toNat = _
    rw [hb]
    decide
  · apply BitVec.eq_of_toNat_eq
    rw [toNat_unpackExponent]
    exact hexp.1
  · intro h0
    have := congrArg BitVec.toNat h0
    rw [toNat_unpackMantissa] at this
    exact hexp.2 this

/-! ### Comparing -/

/-- Values that compare as equal are the same or two zeros. -/
theorem eq_or_zeros_of_compare {a b : UnpackedFloat} (h : a.compare b = some .eq) :
    a = b ∨ ∃ s t, a = .zero s ∧ b = .zero t := by
  cases a with
  | notANumber => cases h
  | infinity s =>
    cases s <;> rcases b with ⟨_ | _⟩ | _ | t | ⟨_ | _, m, e, hm⟩ <;>
      first | exact .inl rfl | cases h
  | zero s =>
    rcases b with ⟨_ | _⟩ | _ | t | ⟨_ | _, m, e, hm⟩
    case zero => exact .inr ⟨s, t, rfl, rfl⟩
    all_goals cases h
  | finite s m e hm =>
    have heq {m' : Nat} {e' : Int} (hm' : 0 < m')
        (h : (compare e e').then (compare m m') = .eq) :
        finite s m e hm = finite s m' e' hm' := by
      obtain ⟨he, hmantissa⟩ := Ordering.then_eq_eq.mp h
      exact finite_congr s hm hm' (compare_eq_iff_eq.mp hmantissa) (compare_eq_iff_eq.mp he)
    left
    cases s <;> rcases b with ⟨_ | _⟩ | _ | t | ⟨_ | _, m', e', hm'⟩
    case negative.finite.negative =>
      exact heq hm' (Ordering.swap_eq_eq.mp (Option.some.inj h))
    case positive.finite.positive => exact heq hm' (Option.some.inj h)
    all_goals cases h

theorem compare_zero (a : UnpackedFloat) (s t : Sign) :
    a.compare (.zero s) = a.compare (.zero t) := by
  rcases a with ⟨_ | _⟩ | _ | r | ⟨_ | _, m, e, hm⟩ <;> rfl

/-- What is below a number is below every number that is equal to it. -/
theorem lt_congr_of_beq {x y : Float} (h : (x == y) = true) (a : Float) : a < x ↔ a < y := by
  have hcompare : x.toModel.unpack.compare y.toModel.unpack = some .eq := beq_iff_eq.mp h
  have hsame : a.toModel.unpack.compare x.toModel.unpack =
      a.toModel.unpack.compare y.toModel.unpack := by
    rcases eq_or_zeros_of_compare hcompare with hxy | ⟨s, t, hx, hy⟩
    · rw [hxy]
    · rw [hx, hy, compare_zero _ s t]
  have hlt : a.lt x = a.lt y := by
    show decide (UnpackedFloat.lt _ _ = true) = decide (UnpackedFloat.lt _ _ = true)
    unfold UnpackedFloat.lt
    rw [hsame]
  exact Bool.eq_iff_iff.mp hlt

end Notebook.Decimal
