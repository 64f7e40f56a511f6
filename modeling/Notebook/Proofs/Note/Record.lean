import Mathlib.Data.List.Nodup
import Notebook.Proofs.Fields.Read
import Notebook.Proofs.Json.Text
import Notebook.Proofs.Keyed

/-!
# Notes written and read

What is checked about a note goes on holding of it: its progress is a ratio, its moments have
offsets, and its embedding is one that a record can give.  The record of such a note is read as the
note itself, but for entries of the embedding that are not finite, and if its moments can be told.
-/

namespace Notebook.Note

/-! ### Sound notes -/

/-- What every note is whose fields have been checked. -/
structure Sound (n : Note) : Prop where
  progress : Fields.ratio (.float n.progress) = .ok n.progress
  dueDate : ∀ t ∈ n.dueDate, t.offset.isSome
  embedding : ∀ g ∈ n.embedding, g.Sound
  lastAnalyzed : ∀ t ∈ n.lastAnalyzed, t.offset.isSome
  created : n.created.offset.isSome
  modified : n.modified.offset.isSome

/-- No entry of the embedding is infinite or no number. -/
def FiniteEmbedding (n : Note) : Prop :=
  ∀ g ∈ n.embedding, ∀ x ∈ g.entries, Decimal.isFinite x = true

/-- All texts of a note that are written down as they are. -/
def writtenTexts (n : Note) : List Text :=
  n.id :: n.title :: n.body :: (n.tags ++ n.suggestedTags ++ n.tasks.map (·.text))

def moments (n : Note) : List Moment :=
  n.created :: n.modified :: (n.dueDate.toList ++ n.lastAnalyzed.toList)

/-- Can a record tell the note?  It cannot tell that two halves of a pair stand side by side and are
not one character, nor the seconds of an offset, nor that clocks are put back or forward. -/
structure Expressible (n : Note) : Prop where
  texts : ∀ s ∈ n.writtenTexts, s.Whole
  moments : ∀ t ∈ n.moments, t.Expressible

instance (n : Note) : Decidable n.Expressible :=
  decidable_of_iff ((∀ s ∈ n.writtenTexts, s.Whole) ∧ ∀ t ∈ n.moments, t.Expressible)
    ⟨fun h => ⟨h.1, h.2⟩, fun h => ⟨h.texts, h.moments⟩⟩

/-- What a note is read as when it was written down. -/
def reread (n : Note) : Note := { n with embedding := n.embedding.bind Grid.reread }

theorem reread_of_finite {n : Note} (h : n.FiniteEmbedding) : n.reread = n := by
  have hembedding : n.embedding.bind Grid.reread = n.embedding := by
    cases hg : n.embedding with
    | none => rfl
    | some g => exact Grid.reread_of_finite (h g hg)
  rw [reread, hembedding]

/-! ### Values that are taken -/

/-- A value that is taken changes nothing or goes to the field of the name. -/
theorem assign_eq_ok {name : Text} {v : Json} {n n' : Note} (h : n.assign name v = .ok n') :
    n' = n ∨ ∃ f : Field, f.name = name ∧ n.setField f v = .ok n' := by
  unfold assign at h
  split at h
  · next f hf =>
    exact .inr ⟨f, by simpa using List.find?_some hf, Checked.under_eq_ok_iff.mp h⟩
  · split at h
    · cases h
    · split at h
      · cases h
        exact .inl rfl
      · cases h

/-! ### Records -/

theorem Field.mem_all (f : Field) : f ∈ Field.all := by cases f <;> decide

theorem nodup_names : (Field.all.map Field.name).Nodup := by decide

/-- The fields of the record of a note. -/
def fieldRecords (n : Note) : Keyed Json := Field.all.map fun f => (f.name, n.fieldRecord f)

theorem keys_fieldRecords (n : Note) : n.fieldRecords.keys = Field.all.map Field.name := by
  simp [fieldRecords, Keyed.keys]

theorem get?_fieldRecords (n : Note) (f : Field) :
    n.fieldRecords.get? f.name = some (n.fieldRecord f) := by
  refine Keyed.get?_of_mem ?_ (List.mem_map.mpr ⟨f, f.mem_all, rfl⟩)
  rw [keys_fieldRecords]
  exact nodup_names

theorem ofJson_toRecord_task (t : Task) : Task.ofJson t.toRecord = .ok t := rfl

/-- The fields of a note are read as the note, but for what its embedding loses. -/
theorem ofFields_fieldRecords {n : Note} (hn : n.Sound)
    (hmoments : ∀ t ∈ n.moments, t.Expressible) (now : Moment) :
    ofFields now n.fieldRecords = .ok n.reread := by
  have get := n.get?_fieldRecords
  have htexts (ss : List Text) : Fields.list Fields.text (.strings ss) = .ok ss :=
    Fields.list_map fun s _ => rfl
  have hmoment {t : Moment} (ht : t ∈ n.moments) (h : t.offset.isSome) :
      Fields.zonedMoment (momentRecord t) = .ok t := Fields.zonedMoment_text h (hmoments t ht)
  have hoption {o : Option Moment} (ho : ∀ t ∈ o, t ∈ n.moments) (h : ∀ t ∈ o, t.offset.isSome) :
      Fields.option Fields.zonedMoment (.ofOption momentRecord o) = .ok o :=
    Fields.option_ofOption (fun _ _ => Json.noConfusion) fun t ht => hmoment (ho t ht) (h t ht)
  have hembedding : Fields.option Fields.grid (.ofOption (Grid.toJson entryRecord) n.embedding) =
      .ok (n.embedding.bind Grid.reread) := Fields.option_grid_toJson hn.embedding
  have htasks : Fields.list Task.ofJson (.arr (n.tasks.map Task.toRecord)) = .ok n.tasks :=
    Fields.list_map fun t _ => ofJson_toRecord_task t
  have hconfidences : Fields.list Fields.number (.floats n.tagConfidences) = .ok n.tagConfidences :=
    Fields.list_map fun x _ => rfl
  show _ = Checked.ok (Note.mk n.id n.title n.body n.tags n.favorite n.archived n.system n.priority
    n.progress n.dueDate n.tasks (n.embedding.bind Grid.reread) n.suggestedTags n.tagConfidences
    n.lastAnalyzed n.created n.modified)
  refine Fields.seq_ok ?_ (Fields.defaulted_of_get? _ (get .modified)
    (hmoment (by simp [moments]) hn.modified))
  refine Fields.seq_ok ?_ (Fields.defaulted_of_get? _ (get .created)
    (hmoment (by simp [moments]) hn.created))
  refine Fields.seq_ok ?_ (Fields.defaulted_of_get? _ (get .lastAnalyzed)
    (hoption (by simp +contextual [moments]) hn.lastAnalyzed))
  refine Fields.seq_ok ?_ (Fields.defaulted_of_get? _ (get .tagConfidences) hconfidences)
  refine Fields.seq_ok ?_ (Fields.defaulted_of_get? _ (get .suggestedTags) (htexts _))
  refine Fields.seq_ok ?_ (Fields.defaulted_of_get? _ (get .embedding) hembedding)
  refine Fields.seq_ok ?_ (Fields.defaulted_of_get? _ (get .tasks) htasks)
  refine Fields.seq_ok ?_ (Fields.defaulted_of_get? _ (get .dueDate)
    (hoption (by simp +contextual [moments]) hn.dueDate))
  refine Fields.seq_ok ?_ (Fields.defaulted_of_get? _ (get .progress) hn.progress)
  refine Fields.seq_ok ?_ (Fields.defaulted_of_get? _ (get .priority) (Fields.choice_name _))
  refine Fields.seq_ok ?_ (Fields.defaulted_of_get? _ (get .system) rfl)
  refine Fields.seq_ok ?_ (Fields.defaulted_of_get? _ (get .archived) rfl)
  refine Fields.seq_ok ?_ (Fields.defaulted_of_get? _ (get .favorite) rfl)
  refine Fields.seq_ok ?_ (Fields.defaulted_of_get? _ (get .tags) (htexts _))
  refine Fields.seq_ok ?_ (Fields.defaulted_of_get? _ (get .body) rfl)
  refine Fields.seq_ok ?_ (Fields.defaulted_of_get? _ (get .title) rfl)
  exact Fields.map_ok Note.mk (Fields.required_of_get? (get .id) rfl)

/-! ### Checked notes are sound -/

/-- Each field of a note is what was read from the record. -/
structure IsRead (now : Moment) (fields : Keyed Json) (n : Note) : Prop where
  id : Fields.required "id" Fields.text fields = .ok n.id
  title : Fields.defaulted "title" ("" : Text) Fields.text fields = .ok n.title
  body : Fields.defaulted "body" ("" : Text) Fields.text fields = .ok n.body
  tags : Fields.defaulted "tags" [] (Fields.list Fields.text) fields = .ok n.tags
  progress : Fields.defaulted "progress" 0.0 Fields.ratio fields = .ok n.progress
  dueDate : Fields.defaulted "due_date" none (Fields.option Fields.zonedMoment) fields =
    .ok n.dueDate
  tasks : Fields.defaulted "tasks" [] (Fields.list Task.ofJson) fields = .ok n.tasks
  embedding : Fields.defaulted "content_embedding" none (Fields.option Fields.grid) fields =
    .ok n.embedding
  suggestedTags : Fields.defaulted "suggested_tags" [] (Fields.list Fields.text) fields =
    .ok n.suggestedTags
  lastAnalyzed : Fields.defaulted "last_analyzed" none (Fields.option Fields.zonedMoment) fields =
    .ok n.lastAnalyzed
  created : Fields.defaulted "created" now.zoned Fields.zonedMoment fields = .ok n.created
  modified : Fields.defaulted "modified" now.zoned Fields.zonedMoment fields = .ok n.modified

theorem isRead_of_ofFields {now : Moment} {fields : Keyed Json} {n : Note}
    (h : ofFields now fields = .ok n) : n.IsRead now fields := by
  unfold ofFields at h
  obtain ⟨_, modified, h1, hmodified, rfl⟩ := Checked.seq_eq_ok_iff.mp h
  obtain ⟨_, created, h2, hcreated, rfl⟩ := Checked.seq_eq_ok_iff.mp h1
  obtain ⟨_, lastAnalyzed, h3, hanalyzed, rfl⟩ := Checked.seq_eq_ok_iff.mp h2
  obtain ⟨_, confidences, h4, -, rfl⟩ := Checked.seq_eq_ok_iff.mp h3
  obtain ⟨_, suggested, h5, hsuggested, rfl⟩ := Checked.seq_eq_ok_iff.mp h4
  obtain ⟨_, embedding, h6, hembedding, rfl⟩ := Checked.seq_eq_ok_iff.mp h5
  obtain ⟨_, tasks, h7, htasks, rfl⟩ := Checked.seq_eq_ok_iff.mp h6
  obtain ⟨_, dueDate, h8, hdue, rfl⟩ := Checked.seq_eq_ok_iff.mp h7
  obtain ⟨_, progress, h9, hprogress, rfl⟩ := Checked.seq_eq_ok_iff.mp h8
  obtain ⟨_, priority, h10, -, rfl⟩ := Checked.seq_eq_ok_iff.mp h9
  obtain ⟨_, system, h11, -, rfl⟩ := Checked.seq_eq_ok_iff.mp h10
  obtain ⟨_, archived, h12, -, rfl⟩ := Checked.seq_eq_ok_iff.mp h11
  obtain ⟨_, favorite, h13, -, rfl⟩ := Checked.seq_eq_ok_iff.mp h12
  obtain ⟨_, tags, h14, htags, rfl⟩ := Checked.seq_eq_ok_iff.mp h13
  obtain ⟨_, body, h15, hbody, rfl⟩ := Checked.seq_eq_ok_iff.mp h14
  obtain ⟨_, title, h16, htitle, rfl⟩ := Checked.seq_eq_ok_iff.mp h15
  obtain ⟨id, hid, rfl⟩ := Fields.exists_of_map_ok h16
  exact ⟨hid, htitle, hbody, htags, hprogress, hdue, htasks, hembedding, hsuggested, hanalyzed,
    hcreated, hmodified⟩

theorem IsRead.sound {now : Moment} {fields : Keyed Json} {n : Note} (h : n.IsRead now fields) :
    n.Sound := by
  have hnone (t : Moment) (ht : t ∈ (none : Option Moment)) : t.offset.isSome := by cases ht
  have hsome {v : Json} {o : Option Moment} (ho : Fields.option Fields.zonedMoment v = .ok o) :
      ∀ t ∈ o, t.offset.isSome :=
    Fields.option_forall Fields.isSome_offset_of_zonedMoment ho
  exact {
    progress := Fields.defaulted_forall (P := fun x => Fields.ratio (.float x) = .ok x)
      Fields.ratio_zero Fields.ratio_of_ratio h.progress
    dueDate := Fields.defaulted_forall (P := fun o => ∀ t ∈ o, t.offset.isSome) hnone hsome
      h.dueDate
    embedding := Fields.defaulted_forall (P := fun o => ∀ g ∈ o, Grid.Sound g) (by simp)
      (Fields.option_forall Fields.sound_of_grid) h.embedding
    lastAnalyzed := Fields.defaulted_forall (P := fun o => ∀ t ∈ o, t.offset.isSome) hnone hsome
      h.lastAnalyzed
    created := Fields.defaulted_forall (P := fun t => t.offset.isSome) rfl
      Fields.isSome_offset_of_zonedMoment h.created
    modified := Fields.defaulted_forall (P := fun t => t.offset.isSome) rfl
      Fields.isSome_offset_of_zonedMoment h.modified }

theorem sound_of_ofFields {now : Moment} {fields : Keyed Json} {n : Note}
    (h : ofFields now fields = .ok n) : n.Sound := (isRead_of_ofFields h).sound

theorem sound_of_ofJson {now : Moment} {v : Json} {n : Note} (h : ofJson now v = .ok n) :
    n.Sound := by
  unfold ofJson at h
  split at h
  · exact sound_of_ofFields h
  · cases h

namespace Sound

variable {n : Note}

theorem touch (h : n.Sound) (now : Moment) : (n.touch now).Sound := { h with modified := rfl }

/-- A field takes no value that would make the note unsound. -/
theorem setField (h : n.Sound) {f : Field} {v : Json} {n' : Note} (hn : n.setField f v = .ok n') :
    n'.Sound := by
  cases f
  all_goals obtain ⟨x, hx, rfl⟩ := Checked.map_eq_ok_iff.mp hn
  case progress => exact { h with progress := Fields.ratio_of_ratio hx }
  case dueDate =>
    exact { h with dueDate := Fields.option_forall Fields.isSome_offset_of_zonedMoment hx }
  case embedding => exact { h with embedding := Fields.option_forall Fields.sound_of_grid hx }
  case lastAnalyzed =>
    exact { h with lastAnalyzed := Fields.option_forall Fields.isSome_offset_of_zonedMoment hx }
  case created => exact { h with created := Fields.isSome_offset_of_zonedMoment hx }
  case modified => exact { h with modified := Fields.isSome_offset_of_zonedMoment hx }
  all_goals exact { h with }

theorem assign (h : n.Sound) {name : Text} {v : Json} {n' : Note}
    (hn : n.assign name v = .ok n') : n'.Sound := by
  rcases assign_eq_ok hn with rfl | ⟨f, -, hset⟩
  · exact h
  · exact h.setField hset

end Sound

/-! ### Notes that come from outside -/

/-- The note with a moment in a field for moments. -/
def setMoment (f : Field) (t : Moment) (n : Note) : Note :=
  match f with
  | .dueDate => { n with dueDate := some t.zoned }
  | .lastAnalyzed => { n with lastAnalyzed := some t.zoned }
  | .created => { n with created := t.zoned }
  | .modified => { n with modified := t.zoned }
  | _ => n

/-- Notes that were read from a record and then given new values for some of their fields, where a
value that a field did not take has left the note as it was.  The values are those that a record may
have, and moments, whose offsets a record need not be able to tell. -/
inductive Validated : Note → Prop
  | read {now : Moment} {v : Json} {n : Note} (h : ofJson now v = .ok n) : Validated n
  | assign {n : Note} (h : Validated n) (name : Text) (v : Json) :
    Validated ((n.assign name v).toOption.getD n)
  | setMoment {n : Note} (h : Validated n) (f : Field) (t : Moment) : Validated (n.setMoment f t)

theorem Sound.setMoment {n : Note} (h : n.Sound) (f : Field) (t : Moment) :
    (n.setMoment f t).Sound := by
  have hzoned : ∀ u ∈ some t.zoned, u.offset.isSome := by
    rintro u ⟨⟩
    rfl
  cases f with
  | dueDate => exact { h with dueDate := hzoned }
  | lastAnalyzed => exact { h with lastAnalyzed := hzoned }
  | created => exact { h with created := rfl }
  | modified => exact { h with modified := rfl }
  | _ => exact h

theorem Validated.sound {n : Note} (h : n.Validated) : n.Sound := by
  induction h with
  | read h => exact sound_of_ofJson h
  | setMoment h f t ih => exact ih.setMoment f t
  | @assign n h name v ih =>
    cases ha : n.assign name v with
    | ok n' => exact ih.assign ha
    | faulty fs => exact ih
    | broken c => exact ih

end Notebook.Note
