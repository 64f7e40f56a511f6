import Notebook.Proofs.Decimal.Order

/-!
# Calculating with no number

What is calculated from a double that is no number is no number either, be it a sum, a product, a
quotient or a root.  A quotient of two numbers is a number or infinite, if one does not divide by
zero.
-/

namespace Notebook.Decimal

open Float.Model Float.Model.UnpackedFloat

variable {x y : Float}

theorem isNaN_iff_unpack : x.isNaN = true ↔ x.toModel.unpack = .notANumber := by
  show x.toModel.unpack.isNaN = true ↔ _
  cases x.toModel.unpack with
  | notANumber => exact ⟨fun _ => rfl, fun _ => rfl⟩
  | infinity | zero | finite => exact ⟨nofun, nofun⟩

theorem eq_nan_of_isNaN (h : x.isNaN = true) : x = nan := by
  rw [← ofBits_toBits x]
  show Float.ofModel (Float.Model.pack x.toModel.unpack) = nan
  rw [isNaN_iff_unpack.mp h]
  rfl

theorem isOrdered_of_isFinite (h : isFinite x = true) : IsOrdered x := by
  rw [isOrdered_iff, ← Bool.not_eq_true]
  intro hnan
  rw [eq_nan_of_isNaN hnan] at h
  exact absurd h (by decide)

/-! ### Sums, products, quotients and roots -/

theorem isNaN_add_left (hx : x.isNaN = true) (y : Float) : (x + y).isNaN = true := by
  have hnone (b : UnpackedFloat) : UnpackedFloat.add .binary64 .notANumber b = .notANumber := rfl
  show (Float.Model.pack (UnpackedFloat.add .binary64 x.toModel.unpack _)).isNaN = true
  rw [isNaN_iff_unpack.mp hx, hnone]
  rfl

theorem isNaN_add_right (x : Float) (hy : y.isNaN = true) : (x + y).isNaN = true := by
  have hnone (a : UnpackedFloat) : UnpackedFloat.add .binary64 a .notANumber = .notANumber := by
    cases a <;> rfl
  show (Float.Model.pack (UnpackedFloat.add .binary64 x.toModel.unpack _)).isNaN = true
  rw [isNaN_iff_unpack.mp hy, hnone]
  rfl

theorem isNaN_mul_right (x : Float) (hy : y.isNaN = true) : (x * y).isNaN = true := by
  have hnone (a : UnpackedFloat) : UnpackedFloat.mul .binary64 a .notANumber = .notANumber := by
    cases a <;> rfl
  show (Float.Model.pack (UnpackedFloat.mul .binary64 x.toModel.unpack _)).isNaN = true
  rw [isNaN_iff_unpack.mp hy, hnone]
  rfl

theorem isNaN_div_right (x : Float) (hy : y.isNaN = true) : (x / y).isNaN = true := by
  have hnone (a : UnpackedFloat) : UnpackedFloat.div .binary64 a .notANumber = .notANumber := by
    cases a <;> rfl
  show (Float.Model.pack (UnpackedFloat.div .binary64 x.toModel.unpack _)).isNaN = true
  rw [isNaN_iff_unpack.mp hy, hnone]
  rfl

theorem isNaN_sqrt (hx : x.isNaN = true) : x.sqrt.isNaN = true := by
  show (Float.Model.pack (UnpackedFloat.sqrt .binary64 x.toModel.unpack)).isNaN = true
  rw [isNaN_iff_unpack.mp hx]
  rfl

/-- One part that is no number is enough, at whatever place of a sum it stands. -/
theorem isNaN_foldl_add {xs : List Float} {start : Float}
    (h : start.isNaN = true ∨ ∃ x ∈ xs, x.isNaN = true) :
    (xs.foldl (· + ·) start).isNaN = true := by
  induction xs generalizing start with
  | nil => simpa using h
  | cons x xs ih =>
    rw [List.foldl_cons]
    apply ih
    rcases h with hstart | ⟨y, hy, hnan⟩
    · exact .inl (isNaN_add_left hstart x)
    · rcases List.mem_cons.mp hy with rfl | hy
      · exact .inl (isNaN_add_right start hnan)
      · exact .inr ⟨y, hy, hnan⟩

/-! ### Quotients of numbers -/

theorem ne_of_isNaN {u : UnpackedFloat} (h : u.isNaN = false) : u ≠ .notANumber := by
  rintro rfl
  cases h

/-- No value becomes no number by being packed into bits. -/
theorem unpack_pack_ne {u : UnpackedFloat} (hu : u ≠ .notANumber) :
    (Float.Model.pack u).unpack ≠ .notANumber := by
  have hdatum (s : Sign) (e : BitVec 11) (m : BitVec 52) (h : e ≠ -1#_ ∨ m = 0#_) :
      unpack .binary64 (word s e m) ≠ .notANumber := by
    rw [unpack_word, datum]
    by_cases he : e = -1#_
    · rw [if_pos he, if_pos (h.resolve_left (not_not_intro he))]
      exact ne_of_isNaN rfl
    rw [if_neg he]
    by_cases hzero : e = 0#_
    · rw [if_pos hzero]
      by_cases hm : m = 0#_
      · rw [dif_pos hm]
        exact ne_of_isNaN rfl
      · rw [dif_neg hm]
        exact ne_of_isNaN rfl
    · rw [if_neg hzero]
      exact ne_of_isNaN rfl
  show unpack .binary64 (UnpackedFloat.pack .binary64 u) ≠ .notANumber
  cases u with
  | notANumber => exact absurd rfl hu
  | infinity s => exact hdatum s (-1#_) 0#_ (.inr rfl)
  | zero s => exact hdatum s 0#_ 0#_ (.inr rfl)
  | finite s m k hm =>
    rw [pack_finite]
    split
    · exact hdatum s (-1#_) 0#_ (.inr rfl)
    · next hsmall =>
      split
      · refine hdatum s _ _ (.inl fun he => hsmall ?_)
        have hones : (-1#11).toNat = 2047 := by decide
        have hmod := congrArg BitVec.toNat he
        rw [BitVec.toNat_ofNat] at hmod
        omega
      · exact hdatum s 0#_ _ (.inl (by decide))

theorem roundWithAccuracy_ne (s : Sign) (m : ℕ) (e : ℤ) (a : Accuracy) :
    roundWithAccuracy .binary64 s m e a ≠ .notANumber := by
  have hrounded (m : ℕ) (e : ℤ) :
      (if h : m = 0 then .zero s else .finite s m e (Nat.pos_of_ne_zero h)) ≠ notANumber := by
    by_cases h : m = 0
    · rw [dif_pos h]
      exact ne_of_isNaN rfl
    · rw [dif_neg h]
      exact ne_of_isNaN rfl
  exact hrounded _ _

theorem isOrdered_div (hx : IsOrdered x) (hy : ∃ s m e hm, y.toModel.unpack = .finite s m e hm) :
    IsOrdered (x / y) := by
  obtain ⟨s, m, e, hm, hy⟩ := hy
  refine unpack_pack_ne ?_
  rw [hy]
  cases hunpack : x.toModel.unpack with
  | notANumber => exact absurd hunpack hx
  | infinity t | zero t => exact ne_of_isNaN rfl
  | finite t n f hn => exact roundWithAccuracy_ne _ _ _ _

theorem isOrdered_hundredth (hx : IsOrdered x) : IsOrdered (x / 100.0) :=
  isOrdered_div hx ⟨.positive, 7036874417766400, -46, by decide, rfl⟩

end Notebook.Decimal
