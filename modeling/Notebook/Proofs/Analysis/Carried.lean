import Notebook.Proofs.Analysis.Finding
import Notebook.Proofs.Analysis.Titled
import Notebook.Note.Record

/-!
# Suggestions of tags that a note carries

Candidates are left out if they are among the tags of the note as they are written, with capitals.
A tag that the note carries in other letters is suggested to it again.
-/

namespace Notebook

/-- A tag is suggested that the note carries, in whatever letters. -/
def Note.Repeats (n : Note) : Prop :=
  ∃ tag ∈ n.suggestedTags, ∃ own ∈ n.tags, Text.lower own = Text.lower tag

instance (n : Note) : Decidable n.Repeats :=
  inferInstanceAs (Decidable (∃ tag ∈ n.suggestedTags, ∃ own ∈ n.tags, _ = _))

/-- The candidates that come with a confidence. -/
def offered (candidates : List Text) (confidences : List Json) : List Text :=
  (candidates.zip confidences).map Prod.fst

theorem mem_of_mem_offered {candidates : List Text} {confidences : List Json} {tag : Text}
    (h : tag ∈ offered candidates confidences) : tag ∈ candidates := by
  obtain ⟨q, hq, rfl⟩ := List.mem_map.mp h
  exact (List.of_mem_zip hq).1

namespace Finding

theorem tags_write (now : Moment) (f : Finding) (n : Note) : (f.write now n).tags = n.tags := by
  cases f with
  | embedding g => rfl
  | tags candidates confidences time =>
    unfold write
    simp only
    split <;> rfl

/-- Suggested is what is offered and not among the tags of the note, just as it is written. -/
theorem suggestedTags_write (now : Moment) (candidates : List Text) (confidences : List Json)
    (time : Moment) (n : Note) :
    ((tags candidates confidences time).write now n).suggestedTags =
      (offered candidates confidences).filter (· ∉ n.tags) := by
  have hkept : (Memory.Change.newTags n.tags candidates confidences).map Prod.fst =
      (offered candidates confidences).filter (· ∉ n.tags) := by
    rw [offered, List.filter_map, Memory.Change.newTags]
    congr 1
    refine List.filter_congr fun q _ => ?_
    simp
  unfold write
  simp only
  split <;> exact hkept

/-- What is suggested again are the titles of tags that the note does not carry as such. -/
theorem repeats_write_iff (now : Moment) (limit : Int) (text : Text) (confidences : List Json)
    (time : Moment) (n : Note) :
    ((tags (entities limit text) confidences time).write now n).Repeats ↔
      ∃ own ∈ n.tags, Text.titled own ∈ offered (entities limit text) confidences ∧
        Text.titled own ∉ n.tags := by
  unfold Note.Repeats
  rw [tags_write, suggestedTags_write]
  constructor
  · rintro ⟨tag, htag, own, hown, hlower⟩
    obtain ⟨hoffered, hnew⟩ := List.mem_filter.mp htag
    obtain rfl := (lower_eq_lower_iff_of_mem_entities (mem_of_mem_offered hoffered) own).mp hlower
    exact ⟨own, hown, hoffered, of_decide_eq_true hnew⟩
  · rintro ⟨own, hown, hoffered, hnew⟩
    refine ⟨Text.titled own, List.mem_filter.mpr ⟨hoffered, decide_eq_true hnew⟩, own, hown, ?_⟩
    exact (lower_eq_lower_iff_of_mem_entities (mem_of_mem_offered hoffered) own).mpr rfl

end Finding

namespace Pipeline

/-- Once a job for tags has been applied no tag of the note is suggested as it is written.  In other
letters one is suggested just if its title is among the candidates, and not among the tags. -/
theorem repeats_of_applied_iff {p : Pipeline} {j : AnalysisJob} (hj : j.task = .tags)
    {confidences : List Json}
    (hgiven : (p.confidences.take (entities p.maxTags j.text)).1 = some confidences) (now : Moment)
    {m : Memory} {n : Note} (hn : m.notes.get? j.id = some n) (later : Moment) :
    ∃ f n', p.finding? now j = some f ∧
      (m.change later j.id f.actions).1.notes.get? j.id = some n' ∧ n'.tags = n.tags ∧
      (∀ tag ∈ n'.suggestedTags, tag ∉ n'.tags) ∧
      (n'.Repeats ↔ ∃ own ∈ n.tags,
        Text.titled own ∈ offered (entities p.maxTags j.text) confidences ∧
          Text.titled own ∉ n.tags) := by
  refine ⟨.tags (entities p.maxTags j.text) confidences now, _, ?_, ?_, Finding.tags_write _ _ n,
    ?_, Finding.repeats_write_iff later _ _ confidences now n⟩
  · simp only [finding?, hj, hgiven, Option.map_some]
  · rw [(Memory.notes_change_finding m later j.id _).1, Keyed.get?_adjust, if_pos rfl, hn]
    rfl
  · intro tag htag
    rw [Finding.suggestedTags_write] at htag
    rw [Finding.tags_write]
    exact of_decide_eq_true (List.mem_filter.mp htag).2

/-- A note that carries the tag in both ways is not offered it again. -/
theorem not_repeats_of_applied_milk :
    let t := Moment.ofDate .first
    let n := { Note.plain "a" "Milk" t with tags := ["milk", "Milk"] }
    let numbers : List Json := [.float 0.5]
    let p := new (.new none) (.ofNotes [n] [] false) (.given fun _ => some numbers) 5
    let j : AnalysisJob := ⟨.tags, "a", plainText n.title n.body⟩
    let m := p.store.memory
    m.notes.get? "a" = some n ∧ ("Milk" : Text) ∈ offered (entities 5 j.text) numbers ∧
      ∃ f n', p.finding? t j = some f ∧
        (m.change t "a" f.actions).1.notes.get? "a" = some n' ∧ ¬ n'.Repeats := by
  intro t n numbers p j m
  have hgiven : (p.confidences.take (entities p.maxTags j.text)).1 = some numbers := rfl
  have hn : m.notes.get? j.id = some n := by decide +kernel
  obtain ⟨f, n', hf, hn', -, -, hrepeats⟩ := repeats_of_applied_iff rfl hgiven t hn t
  refine ⟨hn, by decide +kernel, f, n', hf, hn', fun h => ?_⟩
  obtain ⟨own, hown, -, hnew⟩ := hrepeats.mp h
  have htitled : ∀ own ∈ n.tags, Text.titled own ∈ n.tags := by decide +kernel
  exact hnew (htitled own hown)

/-- A note with the title `Milk` and the tag `milk` is offered the tag `Milk`. -/
theorem repeats_milk :
    let t := Moment.ofDate .first
    let n := { Note.plain "a" "Milk" t with tags := ["milk"] }
    let numbers : List Json := [.float 0.5]
    let p := new (.new none) (.ofNotes [n] [] false) (.given fun _ => some numbers) 5
    let n' := (p.analyze? n).bind fun p => (p.runAll t).store.fetch? "a"
    n'.map (fun n' => (n'.tags, n'.suggestedTags, decide n'.Repeats)) =
      some (([("milk" : Text)], [("Milk" : Text)], true)) := by
  decide +kernel

end Pipeline

end Notebook
