import Notebook.Proofs.Analysis.Queued

/-!
# Findings that come too late

A note may be deleted between the moment when it is handed in and the one when a finding is written
down.  The writer looks for the id alone.  So a finding is dropped after a deletion just if no note
was added under the id since; if one was, the finding goes to this other note.
-/

namespace Notebook

/-! ### What is filed -/

/-- Is a note filed under the id after the job?  `filed` tells whether there was one before. -/
def Job.files (id : Text) (filed : Bool) : Job → Bool
  | .add n => filed || n.id = id
  | .delete id' => filed && id' ≠ id
  | .change .. => filed

/-- Does the job add a note under the id? -/
def Job.addsTo (id : Text) : Job → Bool
  | .add n => n.id = id
  | _ => false

theorem Job.IsPlain.isSome_get? {j : Job} (h : j.IsPlain) (now : Moment) (m : Memory)
    (id : Text) :
    ((Memory.run now j m).1.notes.get? id).isSome = j.files id (m.notes.get? id).isSome := by
  cases j with
  | add n =>
    show ((m.add n).notes.get? id).isSome = _
    rw [Memory.notes_add, Keyed.get?_insert]
    by_cases hid : id = n.id
    · simp [Job.files, hid]
    · simp [Job.files, hid, Ne.symm hid]
  | delete id' =>
    show ((m.delete id').notes.get? id).isSome = _
    rw [Memory.notes_delete, Keyed.get?_erase]
    by_cases hid : id = id'
    · simp [Job.files, hid]
    · simp [Job.files, hid, Ne.symm hid]
  | change id' actions =>
    obtain ⟨f, rfl⟩ := h
    show ((m.change now id' f.actions).1.notes.get? id).isSome = _
    rw [(Memory.notes_change_finding m now id' f).1, Keyed.get?_adjust]
    split
    · exact Option.isSome_map
    · rfl

/-- While nobody deletes it, a note is filed if it was before or is added. -/
theorem foldl_files_of_notMem {id : Text} {js : List Job} (h : .delete id ∉ js) (filed : Bool) :
    js.foldl (Job.files id) filed = (filed || js.any (Job.addsTo id)) := by
  induction js generalizing filed with
  | nil => simp
  | cons j js ih =>
    rw [List.foldl_cons, ih fun hmem => h (List.mem_cons_of_mem j hmem), List.any_cons]
    cases j with
    | add n => exact Bool.or_assoc _ _ _
    | delete id' =>
      have hid : id' ≠ id := fun hid => h (hid ▸ List.mem_cons_self)
      simp [Job.files, Job.addsTo, hid]
    | change id' actions => simp [Job.files, Job.addsTo]

/-- What was done before a deletion makes no difference. -/
theorem foldl_files_delete (id : Text) (earlier later : List Job) (filed : Bool) :
    (earlier ++ .delete id :: later).foldl (Job.files id) filed =
      later.foldl (Job.files id) false := by
  simp [Job.files]

/-! ### Runs -/

namespace Pipeline

variable {p : Pipeline} {ms : List (Moment × Move)}

theorem isSome_fetch?_move (h : ∀ j ∈ p.store.channel.queue, j.IsPlain) (m : Moment × Move)
    (id : Text) :
    ((p.move m).store.fetch? id).isSome =
      (p.doneIn m.2).toList.foldl (Job.files id) (p.store.fetch? id).isSome := by
  obtain ⟨now, ⟨e⟩ | source⟩ := m
  case turnTo => rfl
  cases e with
  | analyze n =>
    simp only [move, step, analyze?]
    split <;> rfl
  | perform i =>
    simp only [move, step]
    cases hj : p.pending[i]? with
    | none =>
      simp only [performAt, hj]
      rfl
    | some j =>
      rw [performAt_of_getElem? hj]
      cases p.finding? now j <;> rfl
  | write =>
    rcases write_cases h now with ⟨hnone, hsame⟩ | ⟨j, rest, hopen, hfirst, hwrote⟩
    · have hdone : p.doneIn (.event .write) = none := by
        rcases hnone with hclosed | hempty
        · simp [doneIn, hclosed]
        · simp [doneIn, hempty]
      simp only [move, hsame, hdone]
      rfl
    · have hdone : p.doneIn (.event .write) = some j := by simp [doneIn, hopen, hfirst]
      simp only [move, hwrote, hdone]
      exact (h j (hfirst ▸ List.mem_cons_self)).isSome_get? now p.store.memory id
  | assign id' field value =>
    simp only [move, step]
    split
    · next store hstore =>
      obtain ⟨n, n', hn, -, rfl⟩ := Store.exists_of_assign? hstore
      show ((Keyed.insert id' n' p.store.memory.notes).get? id).isSome =
        (p.store.memory.notes.get? id).isSome
      rw [Keyed.get?_insert]
      split
      · next hid => exact hid ▸ (congrArg Option.isSome hn).symm
      · rfl
    · rfl
  | submit j => rfl

/-- Whether a note is filed is told by what the writer has done. -/
theorem isSome_fetch?_run (h : ∀ j ∈ p.store.channel.queue, j.IsPlain)
    (hms : ∀ m ∈ ms, m.2.IsPlain) (id : Text) :
    ((p.run ms).store.fetch? id).isSome =
      (p.doneBy ms).foldl (Job.files id) (p.store.fetch? id).isSome := by
  induction ms generalizing p with
  | nil => rfl
  | cons m ms ih =>
    obtain ⟨hm, hms⟩ := List.forall_mem_cons.mp hms
    show (((p.move m).run ms).store.fetch? id).isSome = _
    rw [ih (isPlain_move h hm) hms, isSome_fetch?_move h, doneBy, List.foldl_append]

/-- A note is handed in and deleted later.  A finding for its id that is written down after that is
dropped, and nothing changes, if no note was added under the id since the deletion.  If one was,
the finding is written to this note, and to no other. -/
theorem dropped_iff_not_added (hqueue : p.store.channel.queue = [])
    {before after : List (Moment × Move)} {time : Moment} {note : Note}
    (hms : ∀ m ∈ before ++ (time, .event (.analyze note)) :: after, m.2.IsPlain) :
    let start := p.run (before ++ [(time, .event (.analyze note))])
    let q := start.run after
    ∀ now (f : Finding) rest earlier later, q.store.isOpen = true →
      q.store.channel.queue = .change note.id f.actions :: rest →
      start.doneBy after = earlier ++ .delete note.id :: later → .delete note.id ∉ later →
      (∀ n, .add n ∈ later → n.id ≠ note.id) ∧ q.store.fetch? note.id = none ∧
          (q.step now .write).store.memory = q.store.memory ∨
        (∃ n, .add n ∈ later ∧ n.id = note.id) ∧ ∃ n, q.store.fetch? note.id = some n ∧
          (q.step now .write).store.fetch? note.id = some (f.write now n) ∧
          ∀ id, id ≠ note.id → (q.step now .write).store.fetch? id = q.store.fetch? id := by
  intro start q now f rest earlier later hopen hfirst hdone hlater
  have hstart : ∀ j ∈ start.store.channel.queue, j.IsPlain := by
    refine isPlain_run (by simp [hqueue]) fun m hm => hms m ?_
    rw [List.append_cons]
    exact List.mem_append_left after hm
  have hafter : ∀ m ∈ after, m.2.IsPlain :=
    fun m hm => hms m (List.mem_append_right before (List.mem_cons_of_mem _ hm))
  have hfiled : (q.store.fetch? note.id).isSome = later.any (Job.addsTo note.id) := by
    rw [isSome_fetch?_run hstart hafter, hdone, foldl_files_delete, foldl_files_of_notMem hlater,
      Bool.false_or]
  have hmemory : (q.step now .write).store.memory =
      (q.store.memory.change now note.id f.actions).1 := by
    rw [write_of_first hopen hfirst ⟨f, rfl⟩ now]
    rfl
  cases hn : q.store.fetch? note.id with
  | none =>
    rw [hn] at hfiled
    refine .inl ⟨fun n hadd hid => ?_, rfl, ?_⟩
    · have hnone := List.any_eq_false.mp hfiled.symm _ hadd
      simp [Job.addsTo, hid] at hnone
    · rw [hmemory, Memory.change_finding_of_get?_eq_none hn]
  | some n =>
    rw [hn] at hfiled
    obtain ⟨j, hj, hadds⟩ := List.any_eq_true.mp hfiled.symm
    have hget : ∀ id, (q.step now .write).store.fetch? id =
        if id = note.id then (q.store.fetch? id).map (f.write now) else q.store.fetch? id := by
      intro id
      show (q.step now .write).store.memory.notes.get? id = _
      rw [hmemory, (Memory.notes_change_finding _ now note.id f).1, Keyed.get?_adjust]
      rfl
    refine .inr ⟨?_, n, rfl, ?_, fun id hid => ?_⟩
    · cases j with
      | add n' => exact ⟨n', hj, by simpa [Job.addsTo] using hadds⟩
      | delete | change => cases hadds
    · rw [hget, if_pos rfl, hn]
      rfl
    · rw [hget, if_neg hid]

/-- The note is added again under its id and deleted once more before a worker comes to its tags. -/
theorem dropped_after_second_deletion :
    let t := Moment.ofDate .first
    let milk : Note := .plain "a" "Milk" t
    let p := new (.new none) (.ofNotes [milk] [] false)
      (.given fun tags => some (tags.map fun _ => .float 0.5)) 5
    let before : List (Moment × Move) := [(t, .event (.analyze milk))]
    let after : List (Moment × Move) :=
      [(t, .event (.submit (.delete "a"))), (t, .event .write),
        (t, .event (.submit (.add (.plain "a" "Tea" t)))), (t, .event .write),
        (t, .event (.submit (.delete "a"))), (t, .event .write), (t, .event (.perform 0))]
    let q := (p.run before).run after
    p.store.channel.queue = [] ∧ (∀ m ∈ before ++ after, m.2.IsPlain) ∧
      q.store.isOpen = true ∧ q.store.channel.queue.length = 1 ∧
      (p.run before).doneBy after =
        [.delete "a", .add (.plain "a" "Tea" t)] ++ .delete "a" :: [] ∧
      (q.step t .write).store.memory = q.store.memory := by
  intro t milk p before after q
  have hms : ∀ m ∈ before ++ after, m.2.IsPlain := by
    simp [before, after, Move.IsPlain]
  have hdone : (p.run before).doneBy after =
      [.delete "a", .add (.plain "a" "Tea" t)] ++ .delete "a" :: [] := rfl
  have hfate := @dropped_iff_not_added p rfl [] after t milk hms
  rcases hfate t (.tags _ _ t) [] _ [] rfl rfl hdone (by simp) with
    ⟨-, -, hsame⟩ | ⟨⟨n, hn, -⟩, -⟩
  · exact ⟨rfl, hms, rfl, rfl, hdone, hsame⟩
  · cases hn

/-- The note is deleted and another one is added under its id: the tags of the note that is gone are
suggested for the other one. -/
theorem written_to_another_note :
    let t := Moment.ofDate .first
    let milk : Note := .plain "a" "Milk" t
    let p := new (.new none) (.ofNotes [milk] [] false)
      (.given fun tags => some (tags.map fun _ => .float 0.5)) 5
    let start := p.run [(t, .event (.analyze milk))]
    let after : List (Moment × Move) :=
      [(t, .event (.submit (.delete "a"))), (t, .event .write),
        (t, .event (.submit (.add (.plain "a" "Tea" t)))), (t, .event .write),
        (t, .event (.perform 0))]
    let q := start.run after
    .delete ("a" : Text) ∈ start.doneBy after ∧
      q.store.notes.map (fun n => (n.title, n.suggestedTags)) = [(("Tea" : Text), [])] ∧
      (q.step t .write).store.notes.map (fun n => (n.title, n.suggestedTags)) =
        [(("Tea" : Text), [("Milk" : Text)])] := by
  intro t milk p start after q
  have hdone : start.doneBy after = [.delete "a", .add (.plain "a" "Tea" t)] := rfl
  exact ⟨hdone ▸ List.mem_cons_self, by decide +kernel, by decide +kernel⟩

end Pipeline

end Notebook
