import Notebook.Proofs.Decimal.Undefined
import Notebook.Note.Record
import Notebook.Proofs.Note.Record
import Notebook.Proofs.Query.Asked
import Notebook.Proofs.Query.Operator

/-!
# Progress

The progress of a note that was read, and given values since, is a number from 0 to 1.  It can
therefore be compared with what a query gives, and a note that is not below it has reached it.
-/

namespace Notebook

/-- What passes as a ratio is between the bounds, and so it is a number. -/
theorem Fields.bounds_of_ratio {v : Json} {x : Float} (h : ratio v = .ok x) :
    0.0 ≤ x ∧ x ≤ 1.0 ∧ x.isNaN = false := by
  obtain ⟨y, -, hy⟩ := Checked.andThen_eq_ok_iff.mp h
  split at hy
  · cases hy
  · next hupper =>
    split at hy
    · cases hy
    · next hlower =>
      cases hy
      have hx : 0.0 ≤ x := not_not.mp hlower
      exact ⟨hx, not_not.mp hupper, Decimal.isOrdered_iff.mp (Decimal.isOrdered_of_le hx).2⟩

/-- What a percentage stands for is a number, or infinite, but never undefined. -/
theorem Token.ratioOf?_eq_some {cs : List Letter} {y : Float} (h : ratioOf? cs = some y) :
    ∃ x, Decimal.readLetters? cs = some x ∧ Decimal.isFinite x = true ∧ y = x / 100.0 ∧
      Decimal.IsOrdered y := by
  unfold ratioOf? at h
  split at h
  · next x hx =>
    split at h
    · next hfinite =>
      cases h
      exact ⟨x, hx, hfinite, rfl,
        Decimal.isOrdered_hundredth (Decimal.isOrdered_of_isFinite hfinite)⟩
    · cases h
  · cases h

/-- A query that is nothing but a valid progress asks for this progress alone. -/
theorem Query.parse_progress {raw op v : Text} (hraw : Text.words raw = [op ++ v])
    (hop : op.toList.map Letter.toLower = ("progress:>" : Text).toList)
    (hvalid : (parse raw).discarded = []) :
    ∃ y, Token.ratioOf? v.toList = some y ∧
      parse raw = { descriptor := { minProgress := some y } } := by
  have hparse : parse raw = ofTokens [Token.ofWord (op ++ v)] := by rw [parse, tokens, hraw]; rfl
  rw [hparse, token_progress hop] at hvalid ⊢
  cases hratio : Token.ratioOf? v.toList with
  | none =>
    rw [hratio] at hvalid
    cases hvalid
  | some y => exact ⟨y, rfl, rfl⟩

namespace Note

/-- The progress of a note is a ratio, whatever it was given and whatever of this it has refused.
A query for `v` percent therefore finds the notes that have reached them. -/
theorem Validated.progress_within {n : Note} (h : n.Validated) :
    (0.0 ≤ n.progress ∧ n.progress ≤ 1.0 ∧ n.progress.isNaN = false) ∧
      ∀ raw op v, Text.words raw = [op ++ v] →
        op.toList.map Letter.toLower = ("progress:>" : Text).toList →
        (Query.parse raw).discarded = [] →
        ∃ x, Decimal.readLetters? v.toList = some x ∧ Decimal.isFinite x = true ∧
          ∀ now, (Query.parse raw).descriptor.accepts now n = true ↔
            n.isSearchable = true ∧ x / 100.0 ≤ n.progress := by
  have hbounds := Fields.bounds_of_ratio h.sound.progress
  refine ⟨hbounds, fun raw op v hraw hop hvalid => ?_⟩
  obtain ⟨y, hratio, hparse⟩ := Query.parse_progress hraw hop hvalid
  obtain ⟨x, hx, hfinite, rfl, hordered⟩ := Token.ratioOf?_eq_some hratio
  have hle := Decimal.not_lt_iff_le (Decimal.isOrdered_iff.mpr hbounds.2.2) hordered
  refine ⟨x, hx, hfinite, fun now => ?_⟩
  rw [hparse, Descriptor.accepts_iff, ← hle]
  simp [Descriptor.acceptsTags]

/-- A progress that is spelled is read, one that is no number is refused, and the query is written
in capitals. -/
theorem Validated.progress_within_spelled :
    let t := Moment.ofDate .first
    let n := { plain "a" "Milk" t with progress := 0.5 }
    let kept := (n.assign "progress" (.float Decimal.nan)).toOption.getD n
    let raw : Text := " PROGRESS:>40 "
    ofJson t (.obj [("id", .str "a"), ("title", .str "Milk"), ("progress", .str " .5")]) = .ok n ∧
      kept = n ∧ kept.Validated ∧ Text.words raw = [("PROGRESS:>" : Text) ++ "40"] ∧
      (Query.parse raw).discarded = [] ∧
      ∃ x, Decimal.readLetters? ("40" : Text).toList = some x ∧ Decimal.isFinite x = true ∧
        ((Query.parse raw).descriptor.accepts t kept = true ↔
          kept.isSearchable = true ∧ x / 100.0 ≤ kept.progress) := by
  intro t n kept raw
  have hread :
      ofJson t (.obj [("id", .str "a"), ("title", .str "Milk"), ("progress", .str " .5")]) =
        .ok n := by decide +kernel
  have hkept : kept = n := by decide +kernel
  have hvalidated : kept.Validated := .assign (.read hread) "progress" (.float Decimal.nan)
  have hraw : Text.words raw = [("PROGRESS:>" : Text) ++ "40"] := by decide +kernel
  have hvalid : (Query.parse raw).discarded = [] := by decide +kernel
  obtain ⟨x, hx, hfinite, haccepts⟩ :=
    (Validated.progress_within hvalidated).2 raw _ _ hraw (by decide) hvalid
  exact ⟨hread, hkept, hvalidated, hraw, hvalid, x, hx, hfinite, haccepts t⟩

end Note

end Notebook
