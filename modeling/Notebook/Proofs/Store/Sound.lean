import Notebook.Proofs.Basic
import Notebook.Proofs.Note.Expressible
import Notebook.Store.Basic

/-!
# Stores of sound notes

Whatever the writer of a store is asked to do, notes in memory stay sound, as long as the notes and
embeddings that are handed to it are.  Notes that are loaded from a file are sound, and a record can
tell them.
-/

namespace Notebook

/-! ### Jobs -/

mutual

/-- An action brings a sound embedding, if it brings one. -/
def Action.Sound : Action → Prop
  | .embed embedding => ∀ g ∈ embedding, g.Sound
  | .submit _ actions => Action.AllSound actions
  | _ => True

def Action.AllSound : List Action → Prop
  | [] => True
  | a :: as => a.Sound ∧ Action.AllSound as

end

/-- What is handed to the writer is sound. -/
def Job.Sound : Job → Prop
  | .add n => n.Sound
  | .delete _ => True
  | .change _ actions => Action.AllSound actions

/-! ### Notes in memory -/

/-- All notes are sound. -/
def AllSound (r : Keyed Note) : Prop := ∀ p ∈ r, p.2.Sound

namespace AllSound

variable {r : Keyed Note}

theorem insert (h : AllSound r) (id : Text) {n : Note} (hn : n.Sound) :
    AllSound (Keyed.insert id n r) := by
  intro p hp
  rcases Keyed.mem_insert hp with rfl | hp
  · exact hn
  · exact h p hp

theorem erase (h : AllSound r) (id : Text) : AllSound (Keyed.erase id r) :=
  fun p hp => h p (Keyed.mem_erase.mp hp).1

theorem of_get? (h : AllSound r) {id : Text} {n : Note} (hn : r.get? id = some n) : n.Sound :=
  h _ (Keyed.mem_of_get? hn)

theorem values (h : AllSound r) : ∀ n ∈ r.values, n.Sound := by
  intro n hn
  obtain ⟨p, hp, rfl⟩ := List.mem_map.mp hn
  exact h p hp

theorem ofPairs {ps : List (Text × Note)} (h : ∀ p ∈ ps, p.2.Sound) :
    AllSound (Keyed.ofPairs ps) := by
  induction ps using List.reverseRecOn with
  | nil => exact fun p hp => by cases hp
  | append_singleton ps p ih =>
    rw [Keyed.ofPairs_concat]
    exact (ih fun q hq => h q (List.mem_append_left _ hq)).insert p.1 (h p (by simp))

end AllSound

namespace Memory

theorem allSound_add {m : Memory} (h : AllSound m.notes) {n : Note} (hn : n.Sound) :
    AllSound (m.add n).notes := by
  rw [add, notes_persist]
  exact h.insert n.id hn

theorem allSound_delete {m : Memory} (h : AllSound m.notes) (id : Text) :
    AllSound (m.delete id).notes := by
  unfold delete
  split
  · rw [notes_persist]
    exact h.erase id
  · exact h

/-! ### Changes -/

namespace Change

/-- The notes of a change, its subject and what it has submitted are sound. -/
structure Sound (c : Change) : Prop where
  notes : AllSound c.memory.notes
  subject : c.subject.Sound
  submitted : ∀ j ∈ c.submitted, j.Sound

namespace Sound

variable {c : Change}

theorem put (h : c.Sound) {n : Note} (hn : n.Sound) : (c.put n).Sound := by
  refine ⟨?_, hn, h.submitted⟩
  simp only [Change.put]
  split
  · exact h.notes.insert c.id hn
  · exact h.notes

theorem act (h : c.Sound) (now : Moment) {a : Action} (ha : a.Sound) : (c.act now a).1.Sound := by
  cases a with
  | set field value =>
    simp only [Change.act]
    split
    · next n hn => exact h.put (h.subject.assign hn)
    · exact h
  | appendTag tag => exact h.put { h.subject with }
  | fail => exact h
  | add record =>
    simp only [Change.act]
    split
    · next n hn => exact ⟨allSound_add h.notes (Note.sound_of_ofJson hn), h.subject, h.submitted⟩
    · exact h
  | delete id => exact ⟨allSound_delete h.notes id, h.subject, h.submitted⟩
  | submit id actions =>
    refine ⟨h.notes, h.subject, ?_⟩
    intro j hj
    rcases List.mem_append.mp hj with hj | hj
    · exact h.submitted j hj
    · rw [List.mem_singleton.mp hj]
      exact ha
  | suggest tags confidences time =>
    have hsuggested : (c.put { c.subject with
        suggestedTags := (newTags c.subject.tags tags confidences).map Prod.fst }).Sound :=
      h.put { h.subject with }
    simp only [Change.act]
    split
    · refine hsuggested.put { hsuggested.subject with lastAnalyzed := ?_ }
      rintro t ⟨⟩
      rfl
    · exact hsuggested
  | embed g => exact h.put { h.subject with embedding := ha }

theorem acts (h : c.Sound) (now : Moment) {as : List Action} (has : Action.AllSound as) :
    (c.acts now as).1.Sound := by
  induction as generalizing c with
  | nil => exact h
  | cons a as ih =>
    have hact := h.act now has.1
    unfold Change.acts
    split
    · next d hd =>
      rw [hd] at hact
      exact ih hact has.2
    · next d hd =>
      rw [hd] at hact
      exact hact

end Sound

end Change

/-- A job leaves the notes sound and submits only what is sound. -/
theorem allSound_run {m : Memory} (h : AllSound m.notes) (now : Moment) {j : Job} (hj : j.Sound) :
    AllSound (run now j m).1.notes ∧ ∀ k ∈ (run now j m).2, k.Sound := by
  cases j with
  | add n => exact ⟨allSound_add h hj, by simp [run]⟩
  | delete id => exact ⟨allSound_delete h id, by simp [run]⟩
  | change id actions =>
    show AllSound (change now id actions m).1.notes ∧ ∀ k ∈ (change now id actions m).2, k.Sound
    unfold change
    split
    · exact ⟨h, by simp⟩
    · next n hn =>
      have hacts := (show (Change.mk id n true m []).Sound from
        ⟨h, h.of_get? hn, by simp⟩).acts now hj
      split
      · next c hc =>
        rw [hc] at hacts
        have htouch := hacts.put (hacts.subject.touch now)
        refine ⟨?_, hacts.submitted⟩
        rw [notes_persist]
        exact htouch.notes
      · next c hc =>
        rw [hc] at hacts
        exact ⟨hacts.notes, hacts.submitted⟩

/-! ### Loaded notes -/

theorem sound_of_noteOf {now : Moment} {v : Json} {n : Note} (h : noteOf now v = .ok n) :
    n.Sound := by
  unfold noteOf at h
  split at h
  · simp only at h
    split at h
    · cases h
    · split at h
      · next hn =>
        cases h
        exact Note.sound_of_ofFields hn
      · cases h
      · cases h
  · cases h

theorem sound_of_notesOf {now : Moment} {vs : List Json} {ns : List Note}
    (h : notesOf now vs = .ok ns) : ∀ n ∈ ns, n.Sound := by
  induction vs generalizing ns with
  | nil =>
    cases h
    simp
  | cons v vs ih =>
    obtain ⟨n, hn, h⟩ := except_bind_eq_ok_iff.mp h
    obtain ⟨ms, hms, h⟩ := except_bind_eq_ok_iff.mp h
    cases h
    exact List.forall_mem_cons.mpr ⟨sound_of_noteOf hn, ih hms⟩

theorem expressible_of_noteOf {now : Moment} (hnow : now.Expressible) {v : Json}
    (hv : v.IsWhole) {n : Note} (h : noteOf now v = .ok n) : n.Expressible := by
  cases hv with
  | @obj ps hnames hps =>
    simp only [noteOf] at h
    split at h
    · cases h
    · split at h
      · next m hm =>
        cases h
        exact (Note.isRead_of_ofFields hm).expressible hnow fun p hp =>
          hps p (Keyed.mem_of_mem_ofPairs hp)
      · cases h
      · cases h
  | null | bool | int | float | str | arr => cases h

theorem expressible_of_notesOf {now : Moment} (hnow : now.Expressible) {vs : List Json}
    (hvs : ∀ v ∈ vs, v.IsWhole) {ns : List Note} (h : notesOf now vs = .ok ns) :
    ∀ n ∈ ns, n.Expressible := by
  induction vs generalizing ns with
  | nil =>
    cases h
    exact fun n hn => (List.not_mem_nil hn).elim
  | cons v vs ih =>
    obtain ⟨hv, hvs⟩ := List.forall_mem_cons.mp hvs
    obtain ⟨n, hn, h⟩ := except_bind_eq_ok_iff.mp h
    obtain ⟨ms, hms, h⟩ := except_bind_eq_ok_iff.mp h
    cases h
    exact List.forall_mem_cons.mpr ⟨expressible_of_noteOf hnow hv hn, ih hvs hms⟩

theorem whole_of_items? {v : Json} (hv : v.IsWhole) {vs : List Json} (h : items? v = some vs) :
    ∀ v ∈ vs, v.IsWhole := by
  unfold items? at h
  split at h
  · cases h
    cases hv with
    | arr h => exact h
  · cases h
    exact fun v hv => (List.not_mem_nil hv).elim
  · split at h
    · cases h
      exact fun v hv => (List.not_mem_nil hv).elim
    · cases h
  · cases h

/-- A file has its records at all times, or at none.  What is read of them is whole. -/
theorem notesOfFile_cases (file : Text.Decoded) :
    (∃ vs, (∀ v ∈ vs, v.IsWhole) ∧ ∀ t, notesOfFile t file = notesOf t vs) ∨
      ∃ e, ∀ t, notesOfFile t file = .error e := by
  unfold notesOfFile
  split
  · split
    · next v hv =>
      have hwhole := Json.isWhole_of_ofChars hv
      unfold notesOfRecord
      split
      · split
        · exact .inr ⟨_, fun _ => rfl⟩
        · next w hw =>
          split
          · next vs hvs =>
            cases hwhole with
            | obj hnames hfields =>
              have hitems := whole_of_items? (hfields _ (Keyed.mem_of_get? hw)) hvs
              exact .inl ⟨vs, hitems, fun _ => rfl⟩
          · exact .inr ⟨_, fun _ => rfl⟩
      · exact .inr ⟨_, fun _ => rfl⟩
    · exact .inr ⟨_, fun _ => rfl⟩
  · exact .inr ⟨_, fun _ => rfl⟩

theorem sound_of_notesOfFile {now : Moment} {file : Text.Decoded} {ns : List Note}
    (h : notesOfFile now file = .ok ns) : ∀ n ∈ ns, n.Sound := by
  rcases notesOfFile_cases file with ⟨vs, -, hvs⟩ | ⟨e, he⟩
  · exact sound_of_notesOf ((hvs now).symm.trans h)
  · rw [he] at h
    cases h

/-- A record can tell the notes of a file that is read when the time can be told. -/
theorem expressible_of_notesOfFile {now : Moment} (hnow : now.Expressible) {file : Text.Decoded}
    {ns : List Note} (h : notesOfFile now file = .ok ns) : ∀ n ∈ ns, n.Expressible := by
  rcases notesOfFile_cases file with ⟨vs, hwhole, hvs⟩ | ⟨e, he⟩
  · exact expressible_of_notesOf hnow hwhole ((hvs now).symm.trans h)
  · rw [he] at h
    cases h

/-- What a store on a file begins with: sound notes, and nothing written yet. -/
theorem load_eq_ok {now : Moment} {path : Text} {disk : Disk} {m : Memory}
    (h : load now (some path) disk = .ok m) :
    AllSound m.notes ∧ m.disk = disk ∧ m.path = some path ∧ m.sync = .idle := by
  unfold load at h
  simp only at h
  split at h
  · cases h
  · cases h
    exact ⟨by simp [AllSound], rfl, rfl, rfl⟩
  · split at h
    · cases h
    · obtain ⟨ns, hns, rfl⟩ := except_map_eq_ok_iff.mp h
      refine ⟨AllSound.ofPairs fun p hp => ?_, rfl, rfl, rfl⟩
      obtain ⟨n, hn, rfl⟩ := List.mem_map.mp hp
      exact sound_of_notesOfFile hns n hn

end Memory

end Notebook
