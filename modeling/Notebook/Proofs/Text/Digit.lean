import Notebook.Proofs.Decimal.Text
import Notebook.Proofs.Text.Words
import Notebook.Text.WordChar

/-!
# Plain digits

The digits from 0 to 9 are the only decimal digits among the plain characters; all other digits that
count as such stand far behind them.
-/

namespace Notebook.Text

open Decimal

def plainDigits : List Char := "0123456789".toList

theorem isDigit_iff {c : Char} : c.isDigit = true ↔ 48 ≤ c.toNat ∧ c.toNat ≤ 57 := by
  simp only [Char.isDigit, Bool.and_eq_true, decide_eq_true_eq]
  exact Iff.rfl

theorem mem_plainDigits {c : Char} (h : c.isDigit = true) : c ∈ plainDigits := by
  have hlast : c.toNat < 58 := Nat.lt_succ_of_le (isDigit_iff.mp h).2
  have hmem := forall_of_toNat_lt (n := 58)
    (P := fun l => 48 ≤ l.toNat → l ∈ plainDigits.map Letter.char) (by decide) (c := .char c) hlast
    (isDigit_iff.mp h).1
  obtain ⟨d, hd, heq⟩ := List.mem_map.mp hmem
  exact Letter.char.inj heq ▸ hd

/-- What is the same for the ten digits is the same for every digit.  They are listed, so that the
hypothesis is decided on them alone. -/
theorem eq_of_isDigit {β : Type} {f g : Char → β} (h : plainDigits.map f = plainDigits.map g)
    {c : Char} (hc : c.isDigit = true) : f c = g c :=
  List.map_inj_left.mp h c (mem_plainDigits hc)

theorem digitValue?_of_isDigit {c : Char} (h : c.isDigit = true) :
    digitValue? c = some (c.toNat - '0'.toNat) :=
  eq_of_isDigit (g := fun c => some (c.toNat - '0'.toNat)) (by decide) h

/-- The digits of all other scripts are beyond the plain characters. -/
theorem isDigit_of_digitValue? {c : Char} (hplain : c.toNat < 0x80) {d : ℕ}
    (h : digitValue? c = some d) : c.isDigit = true := by
  have hzeros : zeros.all (fun z => z = 48 ∨ 128 ≤ z) = true := by decide
  obtain ⟨z, hz, -⟩ := Option.map_eq_some_iff.mp h
  have hzero := List.all_eq_true.mp hzeros z (List.mem_of_find?_eq_some hz)
  have hrange := List.find?_some hz
  simp only [Bool.and_eq_true, decide_eq_true_eq] at hzero hrange
  exact isDigit_iff.mpr (by omega)

theorem mapM_digitValue?_eq_some_iff {cs : List Char} (hplain : ∀ c ∈ cs, c.toNat < 0x80)
    {ds : List ℕ} :
    cs.mapM digitValue? = some ds ↔ Digits cs ∧ ds = cs.map (·.toNat - '0'.toNat) := by
  induction cs generalizing ds with
  | nil =>
    have hempty : Digits [] := List.forall_mem_nil _
    exact ⟨fun h => ⟨hempty, (Option.some.inj h).symm⟩, fun h => congrArg some h.2.symm⟩
  | cons c cs ih =>
    obtain ⟨hc, hcs⟩ := List.forall_mem_cons.mp hplain
    rw [List.mapM_cons]
    constructor
    · intro h
      obtain ⟨d, hd, h⟩ := Option.bind_eq_some_iff.mp h
      obtain ⟨es, hes, h⟩ := Option.bind_eq_some_iff.mp h
      obtain ⟨hdigits, rfl⟩ := (ih hcs).mp hes
      have hdigit := isDigit_of_digitValue? hc hd
      rw [digitValue?_of_isDigit hdigit] at hd
      cases hd
      cases h
      exact ⟨List.forall_mem_cons.mpr ⟨hdigit, hdigits⟩, rfl⟩
    · rintro ⟨hdigits, rfl⟩
      obtain ⟨hdigit, hdigits⟩ := List.forall_mem_cons.mp hdigits
      rw [digitValue?_of_isDigit hdigit, (ih hcs).mpr ⟨hdigits, rfl⟩]
      rfl

end Notebook.Text
