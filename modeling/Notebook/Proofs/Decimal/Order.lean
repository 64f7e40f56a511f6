import Mathlib.Data.Prod.Lex
import Notebook.Proofs.Decimal.Bits

/-!
# The order of doubles

What is no number is neither below nor above anything.  All other doubles stand in one line, with
the two zeros at one place: negative ones come before zero and positive ones after it, both by
exponent and then by mantissa.
-/

namespace Notebook.Decimal

open Float.Model

/-- Where a value stands in the line.  What is no number is put at zero. -/
def place : UnpackedFloat → ℤ ×ₗ ℤ ×ₗ ℤ
  | .infinity .negative => toLex (-2, toLex (0, 0))
  | .finite .negative m e _ => toLex (-1, toLex (-e, -m))
  | .zero _ => toLex (0, toLex (0, 0))
  | .finite .positive m e _ => toLex (1, toLex (e, m))
  | .infinity .positive => toLex (2, toLex (0, 0))
  | .notANumber => toLex (0, toLex (0, 0))

theorem compare_then_eq_lt_iff {e f : ℤ} {m n : ℕ} :
    (compare e f).then (compare m n) = .lt ↔ e < f ∨ e = f ∧ m < n := by
  rw [Ordering.then_eq_lt, compare_lt_iff_lt, compare_eq_iff_eq, compare_lt_iff_lt]

theorem compare_then_eq_gt_iff {e f : ℤ} {m n : ℕ} :
    (compare e f).then (compare m n) = .gt ↔ f < e ∨ e = f ∧ n < m := by
  rw [Ordering.then_eq_gt, compare_gt_iff_gt, compare_eq_iff_eq, compare_gt_iff_gt]

theorem compare_signs : compare UnpackedFloat.Sign.negative .positive = .lt := rfl

theorem compare_sign_self (s : UnpackedFloat.Sign) : compare s s = .eq := by cases s <;> rfl

theorem lt_iff_place_lt {a b : UnpackedFloat} (ha : a ≠ .notANumber) (hb : b ≠ .notANumber) :
    a.lt b = true ↔ place a < place b := by
  show (a.compare b == some .lt) = true ↔ _
  rcases a with ⟨_ | _⟩ | _ | s | ⟨_ | _, m, e, hm⟩ <;>
    rcases b with ⟨_ | _⟩ | _ | t | ⟨_ | _, n, f, hn⟩ <;>
    first
    | exact absurd rfl ha
    | exact absurd rfl hb
    | dsimp only [UnpackedFloat.compare, place]
      simp [Prod.Lex.toLex_lt_toLex, compare_then_eq_lt_iff, compare_then_eq_gt_iff, compare_signs]

theorem beq_iff_place_eq {a b : UnpackedFloat} (ha : a ≠ .notANumber) (hb : b ≠ .notANumber) :
    a.beq b = true ↔ place a = place b := by
  show (a.compare b == some .eq) = true ↔ _
  rcases a with ⟨_ | _⟩ | _ | s | ⟨_ | _, m, e, hm⟩ <;>
    rcases b with ⟨_ | _⟩ | _ | t | ⟨_ | _, n, f, hn⟩ <;>
    first
    | exact absurd rfl ha
    | exact absurd rfl hb
    | dsimp only [UnpackedFloat.compare, place]
      simp [compare_signs, compare_sign_self]

/-- A double that is a number or infinite. -/
def IsOrdered (x : Float) : Prop := x.toModel.unpack ≠ .notANumber

variable {x y : Float}

theorem lt_iff_unpack : x < y ↔ x.toModel.unpack.lt y.toModel.unpack = true :=
  decide_eq_true_iff

theorem beq_iff_unpack : (x == y) = true ↔ x.toModel.unpack.beq y.toModel.unpack = true := Iff.rfl

/-- Only doubles that stand in the line can be compared. -/
theorem isOrdered_of_compare {o : Ordering}
    (h : x.toModel.unpack.compare y.toModel.unpack = some o) : IsOrdered x ∧ IsOrdered y := by
  constructor
  · intro hx
    rw [hx] at h
    cases h
  · intro hy
    rw [hy] at h
    cases hx : x.toModel.unpack <;> rw [hx] at h <;> cases h

theorem isOrdered_of_lt (h : x < y) : IsOrdered x ∧ IsOrdered y :=
  isOrdered_of_compare (beq_iff_eq.mp (lt_iff_unpack.mp h))

theorem isOrdered_of_beq (h : (x == y) = true) : IsOrdered x :=
  (isOrdered_of_compare (beq_iff_eq.mp h)).1

theorem not_beq_of_lt (h : x < y) : ¬ (x == y) = true := by
  intro heq
  have hcompare : some Ordering.lt = some .eq :=
    (beq_iff_eq.mp (lt_iff_unpack.mp h)).symm.trans (beq_iff_eq.mp (beq_iff_unpack.mp heq))
  cases hcompare

theorem isOrdered_iff : IsOrdered x ↔ x.isNaN = false := by
  show x.toModel.unpack ≠ .notANumber ↔ x.toModel.unpack.isNaN = false
  cases x.toModel.unpack with
  | notANumber => exact ⟨fun h => absurd rfl h, nofun⟩
  | infinity | zero | finite => exact ⟨fun _ => rfl, fun _ => nofun⟩

/-- Doubles compare as their places do. -/
theorem lt_iff_place (hx : IsOrdered x) (hy : IsOrdered y) :
    x < y ↔ place x.toModel.unpack < place y.toModel.unpack :=
  lt_iff_unpack.trans (lt_iff_place_lt hx hy)

/-- Equal doubles are at one place. -/
theorem beq_iff_place (hx : IsOrdered x) (hy : IsOrdered y) :
    (x == y) = true ↔ place x.toModel.unpack = place y.toModel.unpack :=
  beq_iff_unpack.trans (beq_iff_place_eq hx hy)

theorem beq_symm_iff : (x == y) = true ↔ (y == x) = true := by
  have hcomm {x y : Float} (h : (x == y) = true) : (y == x) = true := by
    obtain ⟨hx, hy⟩ := isOrdered_of_compare (beq_iff_eq.mp h)
    exact (beq_iff_place hy hx).mpr ((beq_iff_place hx hy).mp h).symm
  exact ⟨hcomm, hcomm⟩

theorem le_iff_lt_or_beq : x ≤ y ↔ x < y ∨ (x == y) = true := by
  rw [lt_iff_unpack, beq_iff_unpack, show x ≤ y ↔ x.toModel.unpack.le y.toModel.unpack = true from
    decide_eq_true_iff]
  unfold UnpackedFloat.le UnpackedFloat.lt
  rw [show x.toModel.unpack.beq y.toModel.unpack =
    (x.toModel.unpack.compare y.toModel.unpack == some .eq) from rfl]
  cases x.toModel.unpack.compare y.toModel.unpack with
  | none => simp
  | some o => cases o <;> simp

theorem isOrdered_of_le (h : x ≤ y) : IsOrdered x ∧ IsOrdered y := by
  rcases le_iff_lt_or_beq.mp h with hlt | heq
  · exact isOrdered_of_lt hlt
  · exact ⟨isOrdered_of_beq heq, isOrdered_of_beq (beq_symm_iff.mp heq)⟩

/-- Of two doubles that can be compared, one is not below the other just if it is above or equal. -/
theorem not_lt_iff_le (hx : IsOrdered x) (hy : IsOrdered y) : ¬ x < y ↔ y ≤ x := by
  rw [le_iff_lt_or_beq, lt_iff_place hx hy, lt_iff_place hy hx, beq_iff_place hy hx, not_lt,
    le_iff_lt_or_eq]

end Notebook.Decimal
