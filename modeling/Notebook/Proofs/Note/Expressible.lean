import Notebook.Proofs.Note.Record

/-!
# Notes that a record can tell

A note that is read from a record with whole texts can be told by a record again: its texts are
whole, and its moments have offsets of whole minutes.
-/

namespace Notebook.Note

variable {now : Moment} {n : Note}

theorem forall_mem_writtenTexts {P : Text → Prop} :
    (∀ s ∈ n.writtenTexts, P s) ↔ P n.id ∧ P n.title ∧ P n.body ∧ (∀ s ∈ n.tags, P s) ∧
      (∀ s ∈ n.suggestedTags, P s) ∧ ∀ t ∈ n.tasks, P t.text := by
  simp [writtenTexts, or_imp, forall_and]

theorem forall_mem_moments {P : Moment → Prop} :
    (∀ t ∈ n.moments, P t) ↔ P n.created ∧ P n.modified ∧ (∀ t ∈ n.dueDate, P t) ∧
      ∀ t ∈ n.lastAnalyzed, P t := by
  simp [moments, or_imp, forall_and]

theorem whole_of_task {v : Json} {t : Task} (hv : v.IsWhole) (h : Task.ofJson v = .ok t) :
    t.text.Whole := by
  cases hv with
  | @obj ps hnames hps =>
    obtain ⟨_, completed, hfirst, -, rfl⟩ := Checked.seq_eq_ok_iff.mp h
    obtain ⟨s, hs, rfl⟩ := Fields.exists_of_map_ok hfirst
    obtain ⟨v, hv, hread⟩ := Fields.exists_of_required hs
    exact Fields.whole_of_text (hps _ (Keyed.mem_of_mem_ofPairs (Keyed.mem_of_get? hv))) hread
  | null | bool | int | float | str | arr => cases h

/-- A note that is read when the time can be told, from a record with whole texts. -/
theorem IsRead.expressible {fields : Keyed Json} (h : n.IsRead now fields)
    (hnow : now.Expressible) (hfields : ∀ p ∈ fields, p.2.IsWhole) : n.Expressible where
  texts := by
    have htext {name : Text} {s : Text}
        (hs : Fields.defaulted name ("" : Text) Fields.text fields = .ok s) : s.Whole :=
      Fields.defaulted_forall_of_isWhole (P := Text.Whole) .nil Fields.whole_of_text hfields hs
    have htexts {name : Text} {ss : List Text}
        (hss : Fields.defaulted name [] (Fields.list Fields.text) fields = .ok ss) :
        ∀ s ∈ ss, s.Whole :=
      Fields.defaulted_forall_of_isWhole (P := fun ss : List Text => ∀ s ∈ ss, s.Whole) (by simp)
        (Fields.list_forall_of_isWhole Fields.whole_of_text) hfields hss
    obtain ⟨v, hv, hid⟩ := Fields.exists_of_required h.id
    refine forall_mem_writtenTexts.mpr ⟨?_, htext h.title, htext h.body, htexts h.tags,
      htexts h.suggestedTags, ?_⟩
    · exact Fields.whole_of_text (hfields _ (Keyed.mem_of_get? hv)) hid
    · exact Fields.defaulted_forall_of_isWhole (P := fun ts : List Task => ∀ t ∈ ts, t.text.Whole)
        (by simp) (Fields.list_forall_of_isWhole whole_of_task) hfields h.tasks
  moments := by
    have htime {name : Text} {t : Moment}
        (ht : Fields.defaulted name now.zoned Fields.zonedMoment fields = .ok t) : t.Expressible :=
      Fields.defaulted_forall (Moment.expressible_zoned hnow) Fields.expressible_of_zonedMoment ht
    have hoption {name : Text} {o : Option Moment}
        (ho : Fields.defaulted name none (Fields.option Fields.zonedMoment) fields = .ok o) :
        ∀ t ∈ o, t.Expressible :=
      Fields.defaulted_forall (P := fun o : Option Moment => ∀ t ∈ o, t.Expressible) (by simp)
        (Fields.option_forall Fields.expressible_of_zonedMoment) ho
    exact forall_mem_moments.mpr
      ⟨htime h.created, htime h.modified, hoption h.dueDate, hoption h.lastAnalyzed⟩

/-- A note that is touched when the time can be told. -/
theorem Expressible.touch (h : n.Expressible) (hnow : now.Expressible) :
    (n.touch now).Expressible where
  texts := h.texts
  moments := by
    obtain ⟨hcreated, -, hdue, hanalyzed⟩ := forall_mem_moments.mp h.moments
    exact forall_mem_moments.mpr ⟨hcreated, Moment.expressible_zoned hnow, hdue, hanalyzed⟩

end Notebook.Note
