import Notebook.Proofs.Analysis.Candidates
import Notebook.Proofs.Analysis.Queued
import Notebook.Proofs.Note.Record

/-!
# Suggested tags and their confidences

A source of confidences may give more numbers than there are candidates, or fewer, or fail.  A note
has as many confidences as suggested tags all the same, and after a job for tags each suggested tag
stands at the place of the confidence that was given for it.
-/

namespace Notebook

/-! ### Notes -/

namespace Note

/-- As many confidences as suggested tags. -/
def IsAligned (n : Note) : Prop := n.tagConfidences.length = n.suggestedTags.length

instance (n : Note) : Decidable n.IsAligned := inferInstanceAs (Decidable (_ = _))

/-- What the note suggests are the candidates that it does not carry and that a number was given
for, each with its number. -/
structure Suggests (n : Note) (candidates : List Text) (ys : List Float) : Prop where
  isAligned : n.IsAligned
  tags : n.suggestedTags = ((candidates.zip ys).filter fun q => q.1 ∉ n.tags).map Prod.fst
  paired : ∀ (k : Nat) (tag : Text), n.suggestedTags[k]? = some tag →
    ∃ (i : Nat) (y : Float), candidates[i]? = some tag ∧ ys[i]? = some y ∧
      n.tagConfidences[k]? = some y

theorem suggestions_setField {f : Field} (htags : f ≠ .suggestedTags)
    (hconfidences : f ≠ .tagConfidences) {v : Json} {n n' : Note} (h : n.setField f v = .ok n') :
    n'.suggestedTags = n.suggestedTags ∧ n'.tagConfidences = n.tagConfidences := by
  cases f with
  | suggestedTags => exact absurd rfl htags
  | tagConfidences => exact absurd rfl hconfidences
  | id | title | body | tags | favorite | archived | system | priority | progress | dueDate
  | tasks | embedding | lastAnalyzed | created | modified =>
    obtain ⟨x, -, rfl⟩ := Checked.map_eq_ok_iff.mp h
    exact ⟨rfl, rfl⟩

theorem IsAligned.assign {n n' : Note} (hn : n.IsAligned) {name : Text} {v : Json}
    (htags : name ≠ Field.suggestedTags.name) (hconfidences : name ≠ Field.tagConfidences.name)
    (h : n.assign name v = .ok n') : n'.IsAligned := by
  rcases assign_eq_ok h with rfl | ⟨f, rfl, hset⟩
  · exact hn
  · have hsame := suggestions_setField (fun hf => htags (hf ▸ rfl))
      (fun hf => hconfidences (hf ▸ rfl)) hset
    unfold IsAligned
    rw [hsame.1, hsame.2]
    exact hn

end Note

/-! ### Findings -/

/-- The confidences of a finding are numbers. -/
def Finding.HasFloats : Finding → Prop
  | .tags _ confidences _ => ∃ ys : List Float, confidences = ys.map .float
  | .embedding _ => True

theorem suggests_write (now : Moment) (candidates : List Text) (ys : List Float) (time : Moment)
    (n : Note) :
    ((Finding.tags candidates (ys.map .float) time).write now n).Suggests candidates ys := by
  rw [Finding.write_tags_map_float]
  refine ⟨by simp [Note.IsAligned], rfl, fun k tag hk => ?_⟩
  simp only [List.getElem?_map, Option.map_eq_some_iff] at hk ⊢
  obtain ⟨⟨tag, y⟩, hq, rfl⟩ := hk
  have hmem : (tag, y) ∈ candidates.zip ys := (List.mem_filter.mp (List.mem_of_getElem? hq)).1
  obtain ⟨i, hi⟩ := List.mem_iff_getElem?.mp hmem
  obtain ⟨htag, hy⟩ := List.getElem?_zip_eq_some.mp hi
  exact ⟨i, y, htag, hy, _, hq, rfl⟩

theorem Note.IsAligned.write {n : Note} (h : n.IsAligned) {f : Finding} (hf : f.HasFloats)
    (now : Moment) : (f.write now n).IsAligned := by
  cases f with
  | embedding g => exact h
  | tags candidates confidences time =>
    obtain ⟨ys, rfl⟩ := hf
    exact (suggests_write now candidates ys time n).isAligned

/-- A source that fails or gives numbers, as many as it likes. -/
def Confidences.GivesFloats (s : Confidences) : Prop :=
  ∀ tags confidences, (s.take tags).1 = some confidences →
    ∃ ys : List Float, confidences = ys.map .float

theorem Confidences.GivesFloats.take {s : Confidences} (h : s.GivesFloats) (tags : List Text) :
    (s.take tags).2.GivesFloats := by
  cases s with
  | drawn low high fractions used =>
    intro tags' confidences hgiven
    obtain ⟨ys, hys, -⟩ := take_drawn low high fractions (used + tags.length) tags'
    exact ⟨ys, Option.some.inj (hgiven.symm.trans hys)⟩
  | given f => exact h

/-! ### Stores -/

/-- All notes have as many confidences as suggested tags. -/
def AllAligned (r : Keyed Note) : Prop := ∀ q ∈ r, q.2.IsAligned

namespace AllAligned

variable {r : Keyed Note}

theorem insert (h : AllAligned r) {n : Note} (hn : n.IsAligned) (key : Text) :
    AllAligned (Keyed.insert key n r) := by
  intro q hq
  rcases Keyed.mem_insert hq with rfl | hq
  · exact hn
  · exact h q hq

theorem erase (h : AllAligned r) (id : Text) : AllAligned (Keyed.erase id r) :=
  fun q hq => h q (Keyed.mem_erase.mp hq).1

theorem adjust (h : AllAligned r) {f : Finding} (hf : f.HasFloats) (now : Moment) (id : Text) :
    AllAligned (Keyed.adjust id (f.write now) r) := by
  induction r with
  | nil => exact h
  | cons q r ih =>
    obtain ⟨hq, hr⟩ := List.forall_mem_cons.mp h
    unfold Keyed.adjust
    split
    · exact List.forall_mem_cons.mpr ⟨hq.write hf now, hr⟩
    · exact List.forall_mem_cons.mpr ⟨hq, ih hr⟩

theorem values (h : AllAligned r) : ∀ n ∈ r.values, n.IsAligned := by
  intro n hn
  obtain ⟨q, hq, rfl⟩ := List.mem_map.mp hn
  exact h q hq

end AllAligned

/-- A job that adds an aligned note, deletes one, or writes numbers down. -/
def Job.KeepsAligned : Job → Prop
  | .add n => n.IsAligned
  | .delete _ => True
  | .change _ actions => ∃ f : Finding, actions = f.actions ∧ f.HasFloats

theorem AllAligned.run {m : Memory} (h : AllAligned m.notes) {j : Job} (hj : j.KeepsAligned)
    (now : Moment) : AllAligned (Memory.run now j m).1.notes := by
  cases j with
  | add n =>
    show AllAligned (m.add n).notes
    rw [Memory.notes_add]
    exact h.insert hj n.id
  | delete id =>
    show AllAligned (m.delete id).notes
    rw [Memory.notes_delete]
    exact h.erase id
  | change id actions =>
    obtain ⟨f, rfl, hf⟩ := hj
    show AllAligned (m.change now id f.actions).1.notes
    rw [(Memory.notes_change_finding m now id f).1]
    exact h.adjust hf now id

/-! ### Runs -/

namespace Pipeline

/-- Notes come with as many confidences as suggested tags, nobody but the analysis writes to these
two fields, and sources give numbers. -/
def Move.KeepsAligned : Move → Prop
  | .event (.submit (.add n)) => n.IsAligned
  | .event (.submit (.delete _)) => True
  | .event (.submit (.change ..)) => False
  | .event (.assign _ field _) =>
    field ≠ Note.Field.suggestedTags.name ∧ field ≠ Note.Field.tagConfidences.name
  | .turnTo source => source.GivesFloats
  | _ => True

theorem Move.KeepsAligned.isPlain {m : Move} (h : m.KeepsAligned) : m.IsPlain := by
  cases m with
  | turnTo source => trivial
  | event e =>
    cases e with
    | submit j =>
      cases j with
      | change id actions => exact h.elim
      | add | delete => trivial
    | analyze | perform | write | assign => trivial

/-- A worker has done a job for the tags of a note `id` earlier in the run, and for the candidates
in its text the source gave the numbers. -/
def Gave (p : Pipeline) (ms : List (Moment × Move)) (id : Text) (candidates : List Text)
    (ys : List Float) : Prop :=
  ∃ before time i after j, ms = before ++ (time, .event (.perform i)) :: after ∧
    let past := p.run before
    past.pending[i]? = some j ∧ j.task = .tags ∧ j.id = id ∧
      candidates = entities past.maxTags j.text ∧
      (past.confidences.take candidates).1 = some (ys.map .float)

variable {p : Pipeline} {ms : List (Moment × Move)}

theorem givesFloats_outcome (h : p.confidences.GivesFloats) (now : Moment) (j : AnalysisJob) :
    (p.outcome now j).2.GivesFloats := by
  unfold outcome
  cases j.task with
  | tags => exact h.take _
  | embedding =>
    simp only
    split <;> exact h

theorem givesFloats_move (h : p.confidences.GivesFloats) {m : Moment × Move}
    (hm : m.2.KeepsAligned) : (p.move m).confidences.GivesFloats := by
  obtain ⟨now, ⟨e⟩ | source⟩ := m
  case turnTo => exact hm
  cases e with
  | analyze n =>
    simp only [move, step, analyze?]
    split <;> exact h
  | perform i =>
    simp only [move, step]
    cases hj : p.pending[i]? with
    | none =>
      simp only [performAt, hj]
      exact h
    | some j =>
      rw [performAt_of_getElem? hj]
      exact givesFloats_outcome h now j
  | write => exact h
  | assign id field value =>
    simp only [move, step]
    split <;> exact h
  | submit j => exact h

theorem givesFloats_run (h : p.confidences.GivesFloats) (hms : ∀ m ∈ ms, m.2.KeepsAligned) :
    (p.run ms).confidences.GivesFloats := by
  induction ms using List.reverseRecOn with
  | nil => exact h
  | append_singleton ms m ih =>
    rw [run_concat]
    exact givesFloats_move (ih fun m hm => hms m (List.mem_append_left _ hm))
      (hms m (List.mem_append_right _ List.mem_cons_self))

/-- The numbers of a finding are those that the source gave for its candidates. -/
theorem gave_of_found (hsource : p.confidences.GivesFloats) (hms : ∀ m ∈ ms, m.2.KeepsAligned)
    {id : Text} {candidates : List Text} {confidences : List Json} {time : Moment}
    (h : Found p ms id (.tags candidates confidences time)) :
    candidates.Nodup ∧
      ∃ ys : List Float, confidences = ys.map .float ∧ Gave p ms id candidates ys := by
  obtain ⟨before, now, i, after, j, rfl, hj, hid, hf⟩ := h
  have hpast : (p.run before).confidences.GivesFloats :=
    givesFloats_run hsource fun m hm => hms m (List.mem_append_left _ hm)
  unfold finding? at hf
  cases htask : j.task with
  | embedding =>
    rw [htask] at hf
    simp only at hf
    split at hf <;> cases hf
  | tags =>
    rw [htask] at hf
    obtain ⟨cs, hcs, hfinding⟩ := Option.map_eq_some_iff.mp hf
    cases hfinding
    obtain ⟨ys, rfl⟩ := hpast _ _ hcs
    exact ⟨nodup_entities _ _, ys, rfl, before, _, i, after, j, rfl, hj, htask, hid, rfl, hcs⟩

theorem keepsAligned_of_comes (hsource : p.confidences.GivesFloats)
    (hms : ∀ m ∈ ms, m.2.KeepsAligned) {j : Job} (h : Comes p ms j) : j.KeepsAligned := by
  rcases h with ⟨time, hj⟩ | ⟨id, f, rfl, hfound⟩
  · have hmove := hms _ hj
    cases j with
    | add n => exact hmove
    | delete id => trivial
    | change id actions => exact hmove.elim
  · refine ⟨f, rfl, ?_⟩
    cases f with
    | embedding g => trivial
    | tags candidates confidences time =>
      obtain ⟨-, ys, hys, -⟩ := gave_of_found hsource hms hfound
      exact ⟨ys, hys⟩

theorem allAligned_move (h : AllAligned p.store.memory.notes)
    (hqueue : ∀ j ∈ p.store.channel.queue, j.IsPlain ∧ j.KeepsAligned) {m : Moment × Move}
    (hm : m.2.KeepsAligned) : AllAligned (p.move m).store.memory.notes := by
  obtain ⟨now, ⟨e⟩ | source⟩ := m
  case turnTo => exact h
  cases e with
  | analyze n =>
    simp only [move, step, analyze?]
    split <;> exact h
  | perform i =>
    simp only [move, step]
    cases hj : p.pending[i]? with
    | none =>
      simp only [performAt, hj]
      exact h
    | some j =>
      rw [performAt_of_getElem? hj]
      cases p.finding? now j <;> exact h
  | write =>
    rcases write_cases (fun j hj => (hqueue j hj).1) now with
      ⟨-, hsame⟩ | ⟨j, rest, -, hfirst, hwrote⟩
    · simp only [move, hsame]
      exact h
    · have hj := hqueue j (hfirst ▸ List.mem_cons_self)
      simp only [move, hwrote]
      exact h.run hj.2 now
  | assign id field value =>
    simp only [move, step]
    split
    · next store hstore =>
      obtain ⟨n, n', hn, hassign, rfl⟩ := Store.exists_of_assign? hstore
      have haligned : n.IsAligned := h _ (Keyed.mem_of_get? hn)
      exact h.insert (haligned.assign hm.1 hm.2 hassign) id
    · exact h
  | submit j => exact h

theorem allAligned_run (hqueue : p.store.channel.queue = [])
    (hnotes : AllAligned p.store.memory.notes) (hsource : p.confidences.GivesFloats)
    (hms : ∀ m ∈ ms, m.2.KeepsAligned) : AllAligned (p.run ms).store.memory.notes := by
  induction ms using List.reverseRecOn with
  | nil => exact hnotes
  | append_singleton ms m ih =>
    have hbefore : ∀ m ∈ ms, m.2.KeepsAligned := fun m hm => hms m (List.mem_append_left _ hm)
    have hplain : ∀ m ∈ ms, m.2.IsPlain := fun m hm => (hbefore m hm).isPlain
    rw [run_concat]
    refine allAligned_move (ih hbefore) (fun j hj => ?_)
      (hms m (List.mem_append_right _ List.mem_cons_self))
    have hcomes := comes_of_mem_queue hqueue hplain hj
    exact ⟨hcomes.isPlain hplain, keepsAligned_of_comes hsource hbefore hcomes⟩

/-- A finding that was written down is found on the note. -/
theorem fetch?_wrote_finding {id : Text} {n : Note} (hn : p.store.fetch? id = some n)
    (now : Moment) (f : Finding) (rest : List Job) :
    (p.wrote now (.change id f.actions) rest).store.fetch? id = some (f.write now n) := by
  show (p.store.memory.change now id f.actions).1.notes.get? id = _
  rw [(Memory.notes_change_finding p.store.memory now id f).1, Keyed.get?_adjust, if_pos rfl]
  exact congrArg (Option.map _) hn

/-- While notes come with as many confidences as suggested tags, every note has as many at all
times, whatever sources give.  Right after suggestions are written down on a note, each suggested
tag has the number that the source gave for it when the job was done; so it is, too, when a job is
done and its finding written down at once. -/
theorem isAligned_run (hqueue : p.store.channel.queue = [])
    (hnotes : ∀ n ∈ p.store.notes, n.IsAligned) (hsource : p.confidences.GivesFloats)
    (hms : ∀ m ∈ ms, m.2.KeepsAligned) :
    let q := p.run ms
    (∀ n ∈ q.store.notes, n.IsAligned) ∧
      (∀ now id candidates confidences time rest n, q.store.isOpen = true →
        q.store.channel.queue = .change id [.suggest candidates confidences time] :: rest →
        q.store.fetch? id = some n →
        candidates.Nodup ∧ ∃ ys : List Float, confidences = ys.map .float ∧
          Gave p ms id candidates ys ∧
          ∃ n', (q.step now .write).store.fetch? id = some n' ∧ n'.tags = n.tags ∧
            n'.Suggests candidates ys) ∧
      ∀ now i j n confidences, q.store.Ready → q.pending[i]? = some j → j.task = .tags →
        (q.confidences.take (entities q.maxTags j.text)).1 = some confidences →
        q.store.fetch? j.id = some n →
        (entities q.maxTags j.text).Nodup ∧ ∃ ys : List Float, confidences = ys.map .float ∧
          ∃ n', (q.runAt now i).store.fetch? j.id = some n' ∧ n'.tags = n.tags ∧
            n'.Suggests (entities q.maxTags j.text) ys := by
  intro q
  have hplain : ∀ m ∈ ms, m.2.IsPlain := fun m hm => (hms m hm).isPlain
  have hstart : AllAligned p.store.memory.notes :=
    fun r hr => hnotes r.2 (List.mem_map_of_mem hr)
  refine ⟨(allAligned_run hqueue hstart hsource hms).values, ?_, ?_⟩
  · intro now id candidates confidences time rest n hopen hfirst hn
    have hcomes : Comes p ms (.change id [.suggest candidates confidences time]) :=
      comes_of_mem_queue hqueue hplain (hfirst ▸ List.mem_cons_self)
    obtain ⟨time', hsubmitted⟩ | ⟨id', f, hjob, hfound⟩ := hcomes
    · exact (hms _ hsubmitted).elim
    · cases f with
      | embedding g => cases hjob
      | tags candidates' confidences' time' =>
        cases hjob
        obtain ⟨hnodup, ys, rfl, hgave⟩ := gave_of_found hsource hms hfound
        refine ⟨hnodup, ys, rfl, hgave, _, ?_, ?_, suggests_write now candidates ys time n⟩
        · rw [write_of_first hopen hfirst ⟨.tags candidates (ys.map .float) time, rfl⟩ now]
          exact fetch?_wrote_finding hn now (.tags candidates (ys.map .float) time) rest
        · rw [Finding.write_tags_map_float]
  · intro now i j n confidences hready hj htask hgiven hn
    obtain ⟨ys, rfl⟩ := givesFloats_run hsource hms _ _ hgiven
    refine ⟨nodup_entities _ _, ys, rfl, _, ?_, ?_, suggests_write now _ ys now n⟩
    · have hfinding : q.finding? now j =
          some (.tags (entities q.maxTags j.text) (ys.map .float) now) := by
        simp only [finding?, htask, hgiven, Option.map_some]
      show (q.runAt now i).store.memory.notes.get? j.id = _
      rw [(memory_runAt hready hj now).2, hfinding]
      exact fetch?_wrote_finding hn now _ []
    · rw [Finding.write_tags_map_float]

/-- The first source gives no number for the one candidate, the next one fails, and the last one
gives two. -/
theorem isAligned_run_uneven :
    let t := Moment.ofDate .first
    let milk : Note := .plain "a" "Milk" t
    let p := new (.new none) (.ofNotes [milk] [] false) (.given fun _ => some []) 5
    let ms : List (Moment × Move) :=
      [(t, .event (.analyze milk)), (t, .event (.perform 0)), (t, .event .write),
        (t, .turnTo (.given fun _ => none)), (t, .event (.analyze milk)), (t, .event (.perform 1)),
        (t, .turnTo (.given fun _ => some [.float 0.25, .float 0.5])), (t, .event (.analyze milk))]
    let q := p.run ms
    let written := (q.runAt t 2).store
    p.store.channel.queue = [] ∧ (∀ n ∈ p.store.notes, n.IsAligned) ∧
      p.confidences.GivesFloats ∧ (∀ m ∈ ms, m.2.KeepsAligned) ∧
      (∀ n ∈ q.store.notes, n.IsAligned) ∧
      (∃ n', written.fetch? "a" = some n' ∧ ∃ candidates ys, n'.Suggests candidates ys) ∧
      written.notes.map (fun n => (n.suggestedTags, n.tagConfidences)) =
        [([("Milk" : Text)], [0.25])] := by
  intro t milk p ms q written
  have hnotes : ∀ n ∈ p.store.notes, n.IsAligned := by decide +kernel
  have hgives : ∀ f : Option (List Float),
      (Confidences.given fun _ => f.map (·.map .float)).GivesFloats := by
    intro f tags confidences h
    obtain ⟨ys, -, hys⟩ := Option.map_eq_some_iff.mp h
    exact ⟨ys, hys.symm⟩
  have hms : ∀ m ∈ ms, m.2.KeepsAligned := by
    simp only [ms, List.forall_mem_cons, List.not_mem_nil, false_implies, implies_true]
    exact ⟨trivial, trivial, trivial, hgives none, trivial, trivial, hgives (some [0.25, 0.5]),
      trivial, trivial⟩
  obtain ⟨haligned, -, hrun⟩ := isAligned_run rfl hnotes (hgives (some [])) hms
  have hready : q.store.Ready := ⟨by decide +kernel, List.isEmpty_iff.mp (by decide +kernel)⟩
  have hthere : (q.store.fetch? "a").isSome = true := by decide +kernel
  obtain ⟨n, hn⟩ := Option.isSome_iff_exists.mp hthere
  obtain ⟨-, ys, -, n', hn', -, hsuggests⟩ := hrun t 2 _ n _ hready rfl rfl rfl hn
  exact ⟨rfl, hnotes, hgives (some []), hms, haligned, ⟨n', hn', _, ys, hsuggests⟩,
    by decide +kernel⟩

end Pipeline

end Notebook
