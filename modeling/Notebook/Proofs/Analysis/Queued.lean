import Notebook.Proofs.Analysis.WriteBack

/-!
# What an analysis leaves to the writer

Around a pipeline notes are handed in, added, deleted and edited, workers do jobs, and confidences
may come from another source after every job.  As long as nobody but the analysis asks the writer to
change a note, each change in the queue of the store is what a worker has found out at an earlier
time.
-/

namespace Notebook

/-- Nothing but an addition, a deletion or the writing of a finding. -/
def Job.IsPlain : Job → Prop
  | .change _ actions => ∃ f : Finding, actions = f.actions
  | _ => True

/-- Such a job has no others done. -/
theorem Job.IsPlain.submitted {j : Job} (h : j.IsPlain) (now : Moment) (m : Memory) :
    (Memory.run now j m).2 = [] := by
  cases j with
  | add n => rfl
  | delete id => rfl
  | change id actions =>
    obtain ⟨f, rfl⟩ := h
    exact (Memory.notes_change_finding m now id f).2

namespace Pipeline

/-- Nobody but the analysis asks the writer to change a note. -/
def Move.IsPlain : Move → Prop
  | .event (.submit (.change ..)) => False
  | _ => True

/-! ### The writer -/

/-- The store after the writer has done the first job of the queue, with the others left. -/
def wrote (now : Moment) (j : Job) (rest : List Job) (p : Pipeline) : Pipeline :=
  { p with store := { p.store with channel := { p.store.channel with
      state := (Memory.run now j p.store.memory).1
      queue := rest } } }

theorem write_of_first {p : Pipeline} {j : Job} {rest : List Job} (hopen : p.store.isOpen = true)
    (hqueue : p.store.channel.queue = j :: rest) (hj : j.IsPlain) (now : Moment) :
    p.step now .write = p.wrote now j rest := by
  have hrunning : p.store.channel.running = true := hopen
  have hnone : ((Memory.worker now).run j p.store.memory).2 = [] := hj.submitted now _
  simp only [step, Channel.step_cons _ hrunning hqueue]
  rw [show p.store.channel.state = p.store.memory from rfl, hnone, List.append_nil]
  rfl

/-- The writer does nothing, or it does one plain job. -/
theorem write_cases {p : Pipeline} (h : ∀ j ∈ p.store.channel.queue, j.IsPlain) (now : Moment) :
    (p.store.isOpen = false ∨ p.store.channel.queue = []) ∧ p.step now .write = p ∨
      ∃ j rest, p.store.isOpen = true ∧ p.store.channel.queue = j :: rest ∧
        p.step now .write = p.wrote now j rest := by
  cases hopen : p.store.isOpen with
  | false =>
    have hrunning : p.store.channel.running = false := hopen
    exact .inl ⟨.inl rfl, by simp [step, Channel.step, hrunning]⟩
  | true =>
    cases hqueue : p.store.channel.queue with
    | nil => exact .inl ⟨.inr rfl, by simp [step, Channel.step, hqueue]⟩
    | cons j rest =>
      have hj : j.IsPlain := h j (by rw [hqueue]; exact List.mem_cons_self)
      exact .inr ⟨j, rest, rfl, rfl, write_of_first hopen hqueue hj now⟩

/-! ### Where jobs come from -/

/-- At an earlier point of the run a worker has come to the finding, on the text of a note `id`. -/
def Found (p : Pipeline) (ms : List (Moment × Move)) (id : Text) (f : Finding) : Prop :=
  ∃ before time i after j, ms = before ++ (time, .event (.perform i)) :: after ∧
    (p.run before).pending[i]? = some j ∧ j.id = id ∧ (p.run before).finding? time j = some f

/-- The job was submitted in the run, or it is the writing of what a worker has found. -/
def Comes (p : Pipeline) (ms : List (Moment × Move)) (j : Job) : Prop :=
  (∃ time, (time, .event (.submit j)) ∈ ms) ∨
    ∃ id f, j = .change id f.actions ∧ Found p ms id f

variable {p : Pipeline} {ms : List (Moment × Move)}

theorem Found.mono {id : Text} {f : Finding} (h : Found p ms id f) (m : Moment × Move) :
    Found p (ms ++ [m]) id f := by
  obtain ⟨before, time, i, after, j, rfl, hj, hid, hf⟩ := h
  exact ⟨before, time, i, after ++ [m], j, by simp, hj, hid, hf⟩

theorem Comes.mono {j : Job} (h : Comes p ms j) (m : Moment × Move) : Comes p (ms ++ [m]) j := by
  rcases h with ⟨time, h⟩ | ⟨id, f, hj, h⟩
  · exact .inl ⟨time, List.mem_append_left _ h⟩
  · exact .inr ⟨id, f, hj, h.mono m⟩

theorem Comes.isPlain (hms : ∀ m ∈ ms, m.2.IsPlain) {j : Job} (h : Comes p ms j) : j.IsPlain := by
  rcases h with ⟨time, h⟩ | ⟨id, f, rfl, -⟩
  · cases j with
    | add n => trivial
    | delete id => trivial
    | change id actions => exact (hms _ h).elim
  · exact ⟨f, rfl⟩

/-- What a move adds to the queue. -/
theorem mem_queue_move (h : ∀ j ∈ p.store.channel.queue, j.IsPlain) {m : Moment × Move} {j : Job}
    (hj : j ∈ (p.move m).store.channel.queue) :
    j ∈ p.store.channel.queue ∨ m.2 = .event (.submit j) ∨
      ∃ i k f, m.2 = .event (.perform i) ∧ p.pending[i]? = some k ∧
        p.finding? m.1 k = some f ∧ j = .change k.id f.actions := by
  obtain ⟨now, ⟨e⟩ | source⟩ := m
  case turnTo => exact .inl hj
  cases e with
  | analyze n =>
    simp only [move, step, analyze?] at hj
    split at hj <;> exact .inl hj
  | perform i =>
    simp only [move, step] at hj
    cases hk : p.pending[i]? with
    | none =>
      simp only [performAt, hk] at hj
      exact .inl hj
    | some k =>
      rw [performAt_of_getElem? hk] at hj
      cases hf : p.finding? now k with
      | none =>
        rw [hf] at hj
        exact .inl hj
      | some f =>
        rw [hf] at hj
        rcases List.mem_append.mp hj with hj | hj
        · exact .inl hj
        · exact .inr (.inr ⟨i, k, f, rfl, hk, hf, List.mem_singleton.mp hj⟩)
  | write =>
    rcases write_cases h now with ⟨-, hsame⟩ | ⟨k, rest, -, hqueue, hwrote⟩
    · simp only [move, hsame] at hj
      exact .inl hj
    · simp only [move, hwrote] at hj
      exact .inl (hqueue ▸ List.mem_cons_of_mem k hj)
  | assign id field value =>
    simp only [move, step] at hj
    split at hj
    · next store hstore => exact .inl (Tracked.queue_of_assign? hstore ▸ hj)
    · exact .inl hj
  | submit k =>
    rcases List.mem_append.mp hj with hj | hj
    · exact .inl hj
    · exact .inr (.inl (by rw [List.mem_singleton.mp hj]))

theorem comes_of_mem_queue (hqueue : p.store.channel.queue = []) (hms : ∀ m ∈ ms, m.2.IsPlain)
    {j : Job} (hj : j ∈ (p.run ms).store.channel.queue) : Comes p ms j := by
  induction ms using List.reverseRecOn generalizing j with
  | nil =>
    rw [show p.run [] = p from rfl, hqueue] at hj
    cases hj
  | append_singleton ms m ih =>
    have hbefore : ∀ m ∈ ms, m.2.IsPlain := fun m hm => hms m (List.mem_append_left _ hm)
    rw [run_concat] at hj
    have hplain : ∀ k ∈ (p.run ms).store.channel.queue, k.IsPlain :=
      fun k hk => (ih hbefore hk).isPlain hbefore
    obtain ⟨now, e⟩ := m
    rcases mem_queue_move hplain hj with hold | rfl | ⟨i, k, f, rfl, hk, hf, rfl⟩
    · exact (ih hbefore hold).mono _
    · exact .inl ⟨now, List.mem_append_right _ List.mem_cons_self⟩
    · exact .inr ⟨k.id, f, rfl, ms, now, i, [], k, rfl, hk, rfl, hf⟩

theorem isPlain_move (h : ∀ j ∈ p.store.channel.queue, j.IsPlain) {m : Moment × Move}
    (hm : m.2.IsPlain) : ∀ j ∈ (p.move m).store.channel.queue, j.IsPlain := by
  intro j hj
  rcases mem_queue_move h hj with hold | hsubmit | ⟨i, k, f, -, -, -, rfl⟩
  · exact h j hold
  · rw [hsubmit] at hm
    cases j with
    | add | delete => trivial
    | change id actions => exact hm.elim
  · exact ⟨f, rfl⟩

/-- No job in the queue has others done, at any time. -/
theorem isPlain_run (h : ∀ j ∈ p.store.channel.queue, j.IsPlain) (hms : ∀ m ∈ ms, m.2.IsPlain) :
    ∀ j ∈ (p.run ms).store.channel.queue, j.IsPlain := by
  induction ms using List.reverseRecOn with
  | nil => exact h
  | append_singleton ms m ih =>
    rw [run_concat]
    exact isPlain_move (ih fun m hm => hms m (List.mem_append_left _ hm))
      (hms m (List.mem_append_right _ List.mem_cons_self))

/-! ### What the writer has done -/

/-- The job that the writer does in a move, if it does one. -/
def doneIn (p : Pipeline) : Move → Option Job
  | .event .write => if p.store.isOpen then p.store.channel.queue.head? else none
  | _ => none

/-- The jobs that the writer does in a run, one after the other. -/
def doneBy (p : Pipeline) : List (Moment × Move) → List Job
  | [] => []
  | m :: ms => (p.doneIn m.2).toList ++ (p.move m).doneBy ms

end Pipeline

end Notebook
