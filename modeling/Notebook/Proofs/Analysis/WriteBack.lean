import Notebook.Proofs.Analysis.Finding
import Notebook.Note.Record

/-!
# From the text of a note back to the note

A note is handed in, a worker does a job on the text that the note had then, and the writer of the
store writes the finding down.  Anything may happen in between: further notes are handed in, jobs
are done in any order, fields of notes are set, notes come and go, and confidences may come from
another source after every job.  A note goes by the id under which it is filed.
-/

namespace Notebook

/-! ### Sources of confidences -/

namespace Confidences

/-- The source as it may be later, when more confidences have been taken from it. -/
def Goes : Confidences → Confidences → Prop
  | .drawn low high fractions _, s => ∃ used, s = .drawn low high fractions used
  | .given f, s => s = .given f

theorem Goes.refl (s : Confidences) : s.Goes s := by
  cases s with
  | drawn low high fractions used => exact ⟨used, rfl⟩
  | given f => rfl

theorem Goes.take {s s' : Confidences} (h : s.Goes s') (tags : List Text) :
    s.Goes (s'.take tags).2 := by
  cases s with
  | drawn low high fractions used =>
    obtain ⟨used', rfl⟩ := h
    exact ⟨used' + tags.length, rfl⟩
  | given f =>
    obtain rfl : s' = .given f := h
    rfl

/-- From bounds one number is drawn for each tag. -/
theorem take_drawn (low high : Float) (fractions : List Float) (used : Nat) (tags : List Text) :
    ∃ ys : List Float, ((drawn low high fractions used).take tags).1 = some (ys.map .float) ∧
      ys.length = tags.length :=
  ⟨_, rfl, by simp [draw]⟩

end Confidences

/-! ### Fields set at once -/

theorem Store.exists_of_assign? {s s' : Store} {id field : Text} {value : Json}
    (h : s.assign? id field value = some (.ok s')) :
    ∃ n n', s.fetch? id = some n ∧ n.assign field value = .ok n' ∧
      s' = { s with channel := { s.channel with state :=
        { s.memory with notes := Keyed.insert id n' s.memory.notes } } } := by
  obtain ⟨n, hn, hassign⟩ := Option.map_eq_some_iff.mp h
  obtain ⟨n', hn', rfl⟩ := Checked.map_eq_ok_iff.mp hassign
  exact ⟨n, n', hn, hn', rfl⟩

/-! ### Pipelines in use -/

namespace Pipeline

inductive Event
  | analyze (n : Note)
  /-- A worker does the job at place `i` of those that wait. -/
  | perform (i : Nat)
  /-- The writer of the store does the next job. -/
  | write
  | assign (id field : Text) (value : Json)
  /-- Somebody adds or deletes a note, or changes one. -/
  | submit (j : Job)

/-- A worker does the job at place `i` of those that wait, and nobody waits for the store. -/
def performAt (now : Moment) (i : Nat) (p : Pipeline) : Pipeline :=
  match p.pending[i]? with
  | none => p
  | some j => perform now j { p with pending := p.pending.eraseIdx i }

theorem performAt_of_getElem? {p : Pipeline} {i : Nat} {j : AnalysisJob}
    (h : p.pending[i]? = some j) (now : Moment) :
    p.performAt now i =
      { p with
        pending := p.pending.eraseIdx i
        confidences := (p.outcome now j).2
        store :=
          ((p.finding? now j).map fun f => p.store.change j.id f.actions).getD p.store } := by
  have hsame : outcome now { p with pending := p.pending.eraseIdx i } j = p.outcome now j := rfl
  simp only [performAt, h, perform, hsame, outcome_eq]
  cases p.finding? now j <;> rfl

theorem goes_outcome {p p' : Pipeline} (h : p.confidences.Goes p'.confidences) (now : Moment)
    (j : AnalysisJob) : p.confidences.Goes (p'.outcome now j).2 := by
  unfold outcome
  cases j.task with
  | tags => exact h.take _
  | embedding =>
    simp only
    cases p'.engine.embed j.text <;> exact h

def step (now : Moment) (p : Pipeline) : Event → Pipeline
  | .analyze n => (p.analyze? n).getD p
  | .perform i => p.performAt now i
  | .write =>
    { p with store := { p.store with channel := p.store.channel.step (Memory.worker now) } }
  | .assign id field value =>
    match p.store.assign? id field value with
    | some (.ok store) => { p with store := store }
    | _ => p
  | .submit j => { p with store := p.store.submit j }

/-- One thing done around a pipeline. -/
inductive Move
  | event (e : Event)
  /-- Confidences come from another source from now on.  A source that remembers what it has given
  is another one after every job. -/
  | turnTo (source : Confidences)

def move (p : Pipeline) (m : Moment × Move) : Pipeline :=
  match m.2 with
  | .event e => p.step m.1 e
  | .turnTo source => { p with confidences := source }

def run (p : Pipeline) (ms : List (Moment × Move)) : Pipeline := ms.foldl move p

theorem run_concat (p : Pipeline) (ms : List (Moment × Move)) (m : Moment × Move) :
    p.run (ms ++ [m]) = (p.run ms).move m := by simp [run]

/-! ### The source in the course of a run -/

/-- The source is the one that the pipeline has at some point of the run.  As long as confidences
come from no other one, it is the first, with more of it used. -/
def Serves (p : Pipeline) (ms : List (Moment × Move)) (source : Confidences) : Prop :=
  ∃ past, past <+: ms ∧ source = (p.run past).confidences ∧
    ((∀ m ∈ past, ∃ e, m.2 = .event e) → p.confidences.Goes source)

variable {p : Pipeline} {ms : List (Moment × Move)}

theorem Serves.mono {source : Confidences} (h : Serves p ms source) (m : Moment × Move) :
    Serves p (ms ++ [m]) source :=
  h.imp fun _ ⟨hpast, hsource⟩ => ⟨hpast.trans (List.prefix_append _ _), hsource⟩

theorem goes_step {q : Pipeline} (h : p.confidences.Goes q.confidences) (now : Moment) (e : Event) :
    p.confidences.Goes (q.step now e).confidences := by
  cases e with
  | analyze n =>
    simp only [step, analyze?]
    split <;> exact h
  | perform i =>
    simp only [step]
    cases hj : q.pending[i]? with
    | none => simpa [performAt, hj] using h
    | some j =>
      rw [performAt_of_getElem? hj]
      exact goes_outcome h now j
  | assign id field value =>
    simp only [step]
    split <;> exact h
  | write | submit => exact h

theorem serves_run (p : Pipeline) (ms : List (Moment × Move)) :
    Serves p ms (p.run ms).confidences := by
  refine ⟨ms, List.prefix_rfl, rfl, fun hms => ?_⟩
  induction ms using List.reverseRecOn with
  | nil => exact .refl _
  | append_singleton ms m ih =>
    obtain ⟨e, he⟩ := hms m (by simp)
    have hbefore := ih fun m' hm' => hms m' (List.mem_append_left _ hm')
    rw [run_concat, move, he]
    exact goes_step hbefore m.1 e

end Pipeline

/-! ### What was handed in -/

/-- One of the two jobs of a note, with the note as it was when it was handed in. -/
structure Commission where
  note : Note
  task : AnalysisTask

namespace Commission

def job (c : Commission) : AnalysisJob where
  task := c.task
  id := c.note.id
  text :=
    match c.task with
    | .tags => plainText c.note.title c.note.body
    | .embedding => c.note.title ++ " " ++ c.note.body

def both (n : Note) : List Commission := [⟨n, .tags⟩, ⟨n, .embedding⟩]

theorem map_job_both (n : Note) : (both n).map job = Pipeline.jobsOf n := rfl

/-- Does the commission come to the finding in the run, with the engine and the limit of the
pipeline and a source of confidences that it has? -/
def Yields (p : Pipeline) (ms : List (Moment × Pipeline.Move)) (c : Commission) (f : Finding) :
    Prop :=
  match c.task with
  | .tags =>
    let candidates := entities p.maxTags (plainText c.note.title c.note.body)
    ∃ source confidences time, Pipeline.Serves p ms source ∧
      (source.take candidates).1 = some confidences ∧ f = .tags candidates confidences time
  | .embedding =>
    ∃ g, p.engine.embed (c.note.title ++ " " ++ c.note.body) = .ok g ∧ f = .embedding g

theorem Yields.mono {p : Pipeline} {ms : List (Moment × Pipeline.Move)} {c : Commission}
    {f : Finding} (h : c.Yields p ms f) (m : Moment × Pipeline.Move) :
    c.Yields p (ms ++ [m]) f := by
  obtain ⟨n, task⟩ := c
  cases task with
  | tags =>
    obtain ⟨source, confidences, time, hserves, htaken⟩ := h
    exact ⟨source, confidences, time, hserves.mono m, htaken⟩
  | embedding => exact h

end Commission

/-- Where a job of the store comes from. -/
inductive Origin
  | caller (j : Job)
  | analysis (c : Commission) (f : Finding)

def Origin.job : Origin → Job
  | .caller j => j
  | .analysis c f => .change c.note.id f.actions

/-- A pipeline in use: what waits was handed in with the notes in `waiting`, and what stands in the
queue of the store comes from `origins`. -/
structure Tracked where
  pipeline : Pipeline
  waiting : List Commission
  origins : List Origin

namespace Tracked

open Pipeline (Event Move)

/-- Nothing waits, and nothing in the queue comes from an analysis. -/
def start (p : Pipeline) : Tracked := ⟨p, [], p.store.channel.queue.map .caller⟩

def waitingAfter (s : Tracked) : Event → List Commission
  | .analyze n => if s.pipeline.closed then s.waiting else s.waiting ++ Commission.both n
  | .perform i => s.waiting.eraseIdx i
  | _ => s.waiting

def originsAfter (now : Moment) (s : Tracked) : Event → List Origin
  | .perform i =>
    s.origins ++ ((s.waiting[i]?.bind fun c =>
      (s.pipeline.finding? now c.job).map (Origin.analysis c)).toList)
  | .write =>
    if s.pipeline.store.isOpen then
      match s.origins with
      | [] => []
      | o :: r => r ++ (Memory.run now o.job s.pipeline.store.memory).2.map .caller
    else s.origins
  | .submit j => s.origins ++ [.caller j]
  | _ => s.origins

def step (s : Tracked) (m : Moment × Move) : Tracked :=
  match m.2 with
  | .event e => ⟨s.pipeline.step m.1 e, s.waitingAfter e, s.originsAfter m.1 e⟩
  | .turnTo source => { s with pipeline := { s.pipeline with confidences := source } }

def run (s : Tracked) (ms : List (Moment × Move)) : Tracked := ms.foldl step s

theorem run_concat (s : Tracked) (ms : List (Moment × Move)) (m : Moment × Move) :
    s.run (ms ++ [m]) = (s.run ms).step m := by simp [run]

theorem pipeline_run (p : Pipeline) (ms : List (Moment × Move)) :
    ((start p).run ms).pipeline = p.run ms := by
  induction ms using List.reverseRecOn with
  | nil => rfl
  | append_singleton ms m ih =>
    obtain ⟨now, e | source⟩ := m <;> rw [run_concat, Pipeline.run_concat, ← ih] <;> rfl

/-- What was noted down agrees with the pipeline; what was handed in, was handed in by `ms`. -/
structure Kept (p : Pipeline) (ms : List (Moment × Move)) (s : Tracked) : Prop where
  engine : s.pipeline.engine = p.engine
  maxTags : s.pipeline.maxTags = p.maxTags
  pending : s.pipeline.pending = s.waiting.map Commission.job
  queue : s.pipeline.store.channel.queue = s.origins.map Origin.job
  waiting : ∀ c ∈ s.waiting, ∃ t, (t, .event (.analyze c.note)) ∈ ms
  origins : ∀ c f, .analysis c f ∈ s.origins →
    (∃ t, (t, .event (.analyze c.note)) ∈ ms) ∧ c.Yields p ms f

variable {p : Pipeline} {ms : List (Moment × Move)} {s : Tracked}

theorem kept_start (h : p.pending = []) : (start p).Kept p [] where
  engine := rfl
  maxTags := rfl
  pending := h
  queue := by simp [start, Function.comp_def, Origin.job]
  waiting := by simp [start]
  origins := by simp [start]

/-- More may have happened since. -/
theorem Kept.mono (h : s.Kept p ms) (m : Moment × Move) : s.Kept p (ms ++ [m]) :=
  { h with
    waiting := fun c hc => (h.waiting c hc).imp fun _ ht => List.mem_append_left _ ht
    origins := fun c f ho => (h.origins c f ho).imp
      (fun ⟨t, ht⟩ => ⟨t, List.mem_append_left _ ht⟩) fun hyields => hyields.mono m }

theorem Kept.analyze (h : s.Kept p ms) (now : Moment) (n : Note) :
    (s.step (now, .event (.analyze n))).Kept p (ms ++ [(now, .event (.analyze n))]) := by
  have hmono := h.mono (now, .event (.analyze n))
  cases hclosed : s.pipeline.closed with
  | true =>
    have hsame : s.step (now, .event (.analyze n)) = s := by
      simp [step, Pipeline.step, Pipeline.analyze?, waitingAfter, originsAfter, hclosed]
    rw [hsame]
    exact hmono
  | false =>
    have hstep : s.step (now, .event (.analyze n)) =
        ⟨{ s.pipeline with pending := s.pipeline.pending ++ Pipeline.jobsOf n },
          s.waiting ++ Commission.both n, s.origins⟩ := by
      simp [step, Pipeline.step, Pipeline.analyze?, waitingAfter, originsAfter, hclosed]
    rw [hstep]
    refine { hmono with pending := ?_, waiting := fun c hc => ?_ }
    · rw [List.map_append, Commission.map_job_both, ← h.pending]
    · rcases List.mem_append.mp hc with hold | hnew
      · exact hmono.waiting c hold
      · refine ⟨now, List.mem_append_right _ (List.mem_singleton.mpr ?_)⟩
        simp only [Commission.both, List.mem_cons, List.not_mem_nil, or_false] at hnew
        rcases hnew with rfl | rfl <;> rfl

theorem Kept.yields (h : s.Kept p ms) (hserves : Pipeline.Serves p ms s.pipeline.confidences)
    {now : Moment} {c : Commission} {f : Finding}
    (hf : s.pipeline.finding? now c.job = some f) : c.Yields p ms f := by
  obtain ⟨n, task⟩ := c
  cases task with
  | tags =>
    simp only [Pipeline.finding?, Commission.job, Option.map_eq_some_iff, h.maxTags] at hf
    obtain ⟨cs, hcs, rfl⟩ := hf
    exact ⟨_, cs, now, hserves, hcs, rfl⟩
  | embedding =>
    simp only [Pipeline.finding?, Commission.job, h.engine] at hf
    cases hg : p.engine.embed (n.title ++ " " ++ n.body) with
    | ok g =>
      rw [hg] at hf
      exact ⟨g, hg, (Option.some.inj hf).symm⟩
    | error e =>
      rw [hg] at hf
      cases hf

theorem Kept.perform (h : s.Kept p ms) (hserves : Pipeline.Serves p ms s.pipeline.confidences)
    (now : Moment) (i : Nat) :
    (s.step (now, .event (.perform i))).Kept p (ms ++ [(now, .event (.perform i))]) := by
  have hmono := h.mono (now, .event (.perform i))
  have hpending : s.pipeline.pending[i]? = (s.waiting[i]?).map Commission.job := by
    rw [h.pending, List.getElem?_map]
  cases hc : s.waiting[i]? with
  | none =>
    have hlength : s.waiting.length ≤ i := List.getElem?_eq_none_iff.mp hc
    have hsame : s.step (now, .event (.perform i)) = s := by
      simp [step, Pipeline.step, Pipeline.performAt, waitingAfter, originsAfter, hpending, hc,
        List.eraseIdx_of_length_le hlength]
    rw [hsame]
    exact hmono
  | some c =>
    rw [hc, Option.map_some] at hpending
    have hpipeline := Pipeline.performAt_of_getElem? hpending now
    have hleft : (s.pipeline.pending.eraseIdx i) = (s.waiting.eraseIdx i).map Commission.job := by
      rw [h.pending, List.eraseIdx_map]
    have hwaiting : ∀ c ∈ s.waiting.eraseIdx i,
        ∃ t, (t, .event (.analyze c.note)) ∈ ms ++ [(now, .event (.perform i))] :=
      fun c hc => hmono.waiting c (List.mem_of_mem_eraseIdx hc)
    cases hf : s.pipeline.finding? now c.job with
    | none =>
      have hstep : s.step (now, .event (.perform i)) =
          ⟨s.pipeline.performAt now i, s.waiting.eraseIdx i, s.origins⟩ := by
        simp [step, Pipeline.step, waitingAfter, originsAfter, hc, hf]
      rw [hstep, hpipeline, hf]
      exact { hmono with
        pending := hleft
        waiting := hwaiting }
    | some f =>
      have hstep : s.step (now, .event (.perform i)) =
          ⟨s.pipeline.performAt now i, s.waiting.eraseIdx i, s.origins ++ [.analysis c f]⟩ := by
        simp [step, Pipeline.step, waitingAfter, originsAfter, hc, hf]
      rw [hstep, hpipeline, hf]
      refine { hmono with
        pending := hleft
        waiting := hwaiting
        queue := ?_
        origins := fun c' f' ho => ?_ }
      · show s.pipeline.store.channel.queue ++ [.change c.job.id f.actions] = _
        rw [h.queue, List.map_append]
        rfl
      · rcases List.mem_append.mp ho with hold | hnew
        · exact hmono.origins c' f' hold
        · obtain ⟨rfl, rfl⟩ : c' = c ∧ f' = f := by simpa using hnew
          exact ⟨hmono.waiting c' (List.mem_of_getElem? hc), (h.yields hserves hf).mono _⟩

theorem Kept.write (h : s.Kept p ms) (now : Moment) :
    (s.step (now, .event .write)).Kept p (ms ++ [(now, .event .write)]) := by
  have hmono := h.mono (now, .event .write)
  cases hopen : s.pipeline.store.isOpen with
  | false =>
    have hrunning : s.pipeline.store.channel.running = false := hopen
    have hsame : s.step (now, .event .write) = s := by
      simp [step, Pipeline.step, waitingAfter, originsAfter, hopen, Channel.step, hrunning]
    rw [hsame]
    exact hmono
  | true =>
    have hrunning : s.pipeline.store.channel.running = true := hopen
    have hqueue := h.queue
    cases ho : s.origins with
    | nil =>
      rw [ho] at hqueue
      have hsame : s.step (now, .event .write) = s := by
        have hnil : s.originsAfter now .write = s.origins := by
          simp [originsAfter, hopen, ho]
        simp [step, Pipeline.step, waitingAfter, hnil, Channel.step, hqueue]
      rw [hsame]
      exact hmono
    | cons o r =>
      rw [ho, List.map_cons] at hqueue
      have horigins : s.originsAfter now .write =
          r ++ (Memory.run now o.job s.pipeline.store.memory).2.map .caller := by
        simp [originsAfter, hopen, ho]
      refine { hmono with queue := ?_, origins := fun c f hc => ?_ }
      · show ((s.pipeline.store.channel).step (Memory.worker now)).queue =
          (s.originsAfter now .write).map Origin.job
        rw [Channel.step_cons _ hrunning hqueue, horigins, List.map_append, List.map_map]
        simp [Function.comp_def, Origin.job, Memory.worker, Store.memory]
      · have hc : .analysis c f ∈ s.originsAfter now .write := hc
        rw [horigins] at hc
        refine hmono.origins c f ?_
        rw [ho]
        exact List.mem_cons_of_mem _ (by simpa using hc)

theorem queue_of_assign? {s s' : Store} {id field : Text} {value : Json}
    (h : s.assign? id field value = some (.ok s')) : s'.channel.queue = s.channel.queue := by
  obtain ⟨n, n', -, -, rfl⟩ := Store.exists_of_assign? h
  rfl

theorem Kept.assign (h : s.Kept p ms) (now : Moment) (id field : Text) (value : Json) :
    (s.step (now, .event (.assign id field value))).Kept p
      (ms ++ [(now, .event (.assign id field value))]) := by
  have hqueue : ((s.pipeline.step now (.assign id field value))).store.channel.queue =
      s.pipeline.store.channel.queue := by
    simp only [Pipeline.step]
    split
    · next store hstore => exact queue_of_assign? hstore
    · rfl
  have hstep : s.step (now, .event (.assign id field value)) =
      ⟨{ s.pipeline with store := (s.pipeline.step now (.assign id field value)).store },
        s.waiting, s.origins⟩ := by
    simp only [step, Pipeline.step]
    split <;> rfl
  rw [hstep]
  exact { h.mono (now, .event (.assign id field value)) with queue := hqueue.trans h.queue }

theorem Kept.step (h : s.Kept p ms) (hserves : Pipeline.Serves p ms s.pipeline.confidences)
    (m : Moment × Move) : (s.step m).Kept p (ms ++ [m]) := by
  obtain ⟨now, e | source⟩ := m
  case turnTo => exact { h.mono (now, .turnTo source) with }
  cases e with
  | analyze n => exact h.analyze now n
  | perform i => exact h.perform hserves now i
  | write => exact h.write now
  | assign id field value => exact h.assign now id field value
  | submit j =>
    refine { h.mono (now, .event (.submit j)) with queue := ?_, origins := fun c f ho => ?_ }
    · show s.pipeline.store.channel.queue ++ [j] = (s.origins ++ [Origin.caller j]).map Origin.job
      rw [h.queue, List.map_append]
      rfl
    · refine (h.mono (now, .event (.submit j))).origins c f ?_
      simpa [Tracked.step, originsAfter] using ho

theorem Kept.run (h : p.pending = []) (ms : List (Moment × Move)) :
    ((start p).run ms).Kept p ms := by
  induction ms using List.reverseRecOn with
  | nil => exact kept_start h
  | append_singleton ms m ih =>
    rw [run_concat]
    exact ih.step (pipeline_run p ms ▸ Pipeline.serves_run p ms) m

end Tracked

/-! ### What is written -/

/-- How the memory changes when what the commission comes to is written down at the moment `now`. -/
structure WrittenBack (p : Pipeline) (ms : List (Moment × Pipeline.Move)) (now : Moment)
    (c : Commission) (m m' : Memory) : Prop where
  /-- No note comes and none goes. -/
  keys : m'.notes.keys = m.notes.keys
  others : ∀ id, id ≠ c.note.id → m'.notes.get? id = m.notes.get? id
  gone : m.notes.get? c.note.id = none → m' = m
  embedding : c.task = .embedding → ∀ n, m.notes.get? c.note.id = some n →
    ∃ g, p.engine.embed (c.note.title ++ " " ++ c.note.body) = .ok g ∧
      m'.notes.get? c.note.id = some { n with embedding := g, modified := now.zoned }
  /-- A candidate that the note carries by now is dropped with its confidence.  If a confidence is
  no number, nothing but the tags is written. -/
  tags : c.task = .tags → ∀ n, m.notes.get? c.note.id = some n →
    let candidates := entities p.maxTags (plainText c.note.title c.note.body)
    ∃ source confidences time n', Pipeline.Serves p ms source ∧
      (source.take candidates).1 = some confidences ∧ m'.notes.get? c.note.id = some n' ∧
        let kept := (candidates.zip confidences).filter fun q => q.1 ∉ n.tags
        ((∃ xs, Fields.list Fields.number (.arr (kept.map Prod.snd)) = .ok xs ∧
            n' = { n with
              suggestedTags := kept.map Prod.fst
              tagConfidences := xs
              lastAnalyzed := some (Moment.zoned time)
              modified := now.zoned }) ∨
          (∀ xs, Fields.list Fields.number (.arr (kept.map Prod.snd)) ≠ .ok xs) ∧
            n' = { n with suggestedTags := kept.map Prod.fst }) ∧
        ∀ ys : List Float, confidences = ys.map .float → ys.length = candidates.length →
          n' = { n with
            suggestedTags := candidates.filter (· ∉ n.tags)
            tagConfidences := ((candidates.zip ys).filter fun q => q.1 ∉ n.tags).map Prod.snd
            lastAnalyzed := some (Moment.zoned time)
            modified := now.zoned }

theorem newTags_eq (own candidates : List Text) (confidences : List Json) :
    Memory.Change.newTags own candidates confidences =
      (candidates.zip confidences).filter fun q => q.1 ∉ own :=
  List.filter_congr fun q _ => by simp

theorem writtenBack_change {p : Pipeline} {ms : List (Moment × Pipeline.Move)} {c : Commission}
    {f : Finding} (h : c.Yields p ms f) (now : Moment) (m : Memory) :
    WrittenBack p ms now c m (m.change now c.note.id f.actions).1 := by
  have hnotes := (Memory.notes_change_finding m now c.note.id f).1
  have hget : ∀ id, (m.change now c.note.id f.actions).1.notes.get? id =
      if id = c.note.id then (m.notes.get? id).map (f.write now) else m.notes.get? id := by
    intro id
    rw [hnotes, Keyed.get?_adjust]
  obtain ⟨note, task⟩ := c
  refine ⟨?_, fun id hid => ?_, fun hgone => ?_, fun htask n hn => ?_, fun htask n hn => ?_⟩
  · rw [hnotes, Keyed.keys_adjust]
  · rw [hget, if_neg hid]
  · rw [Memory.change_finding_of_get?_eq_none hgone]
  · cases htask
    obtain ⟨g, hg, rfl⟩ := h
    exact ⟨g, hg, by rw [hget, if_pos rfl, hn]; rfl⟩
  · cases htask
    obtain ⟨source, confidences, time, hsource, hconfidences, rfl⟩ := h
    refine ⟨source, confidences, time, _, hsource, hconfidences, by rw [hget, if_pos rfl, hn]; rfl,
      ?_, fun ys hys hlength => ?_⟩
    · rw [← newTags_eq]
      unfold Finding.write
      cases hread : Fields.list Fields.number
          (.arr ((Memory.Change.newTags n.tags _ confidences).map Prod.snd)) with
      | ok xs => exact .inl ⟨xs, rfl, by simp only [hread]⟩
      | faulty fs => exact .inr ⟨by simp, by simp only [hread]⟩
      | broken b => exact .inr ⟨by simp, by simp only [hread]⟩
    · rw [hys]
      exact Finding.write_tags_of_floats now hlength time n

namespace Pipeline

/-- An analysis uses the text that a note had when it was handed in, whatever has happened since,
and touches nothing but what it is to find out.  To do a job changes nothing that the store holds;
when its finding is written down no note comes or goes, the others stay as they are, and so does the
note itself but for the finding and, if that is written to its end, the time of the change.  The
confidences are those that the source gave that the pipeline had then. -/
theorem writtenBack_run {p : Pipeline} (hp : p.pending = []) (ms : List (Moment × Move)) :
    let s := (Tracked.start p).run ms
    s.pipeline.pending = s.waiting.map Commission.job ∧
      s.pipeline.store.channel.queue = s.origins.map Origin.job ∧
      (∀ c ∈ s.waiting, ∃ t, (t, .event (.analyze c.note)) ∈ ms) ∧
      (∀ now i, (s.pipeline.performAt now i).store.memory = s.pipeline.store.memory) ∧
      (∀ now c f rest, s.origins = .analysis c f :: rest → s.pipeline.store.isOpen = true →
        (∃ t, (t, .event (.analyze c.note)) ∈ ms) ∧
          WrittenBack p ms now c s.pipeline.store.memory
            (s.step (now, .event .write)).pipeline.store.memory) ∧
      ∀ now i c, s.waiting[i]? = some c → s.pipeline.store.Ready →
        (s.pipeline.outcome now c.job).1 = none ∧
            (s.pipeline.runAt now i).store.memory = s.pipeline.store.memory ∨
          WrittenBack p ms now c s.pipeline.store.memory
            (s.pipeline.runAt now i).store.memory := by
  intro s
  have hkept : s.Kept p ms := Tracked.Kept.run hp ms
  have hserves : Serves p ms s.pipeline.confidences :=
    Tracked.pipeline_run p ms ▸ serves_run p ms
  refine ⟨hkept.pending, hkept.queue, hkept.waiting, fun now i => ?_,
    fun now c f rest horigins hopen => ?_, fun now i c hc hready => ?_⟩
  · cases hj : s.pipeline.pending[i]? with
    | none => simp [performAt, hj]
    | some j =>
      rw [performAt_of_getElem? hj]
      cases s.pipeline.finding? now j <;> rfl
  · have hfrom := hkept.origins c f (by rw [horigins]; exact List.mem_cons_self)
    have hqueue := hkept.queue
    rw [horigins, List.map_cons] at hqueue
    have hwrite : (s.step (now, .event .write)).pipeline.store.memory =
        (s.pipeline.store.memory.change now c.note.id f.actions).1 :=
      congrArg Channel.state (Channel.step_cons (Memory.worker now) hopen hqueue)
    rw [hwrite]
    exact ⟨hfrom.1, writtenBack_change hfrom.2 now _⟩
  · have hj : s.pipeline.pending[i]? = some c.job := by
      rw [hkept.pending, List.getElem?_map, hc]
      rfl
    rw [(memory_runAt hready hj now).2, outcome_eq]
    cases hf : s.pipeline.finding? now c.job with
    | none => exact .inl ⟨rfl, rfl⟩
    | some f => exact .inr (writtenBack_change (hkept.yields hserves hf) now _)

/-- The title of a note is set after the note was handed in. -/
theorem writtenBack_run_retitled :
    let t := Moment.ofDate .first
    let milk : Note := .plain "a" "Milk" t
    let p := new (.new none) (.ofNotes [milk] [] false)
      (.given fun tags => some (tags.map fun _ => .int 1)) 5
    let ms : List (Moment × Move) :=
      [(t, .event (.analyze milk)), (t, .event (.assign "a" "title" (.str "Tea"))),
        (t, .event (.perform 0))]
    let s := (Tracked.start p).run ms
    let written := (s.step (t, .event .write)).pipeline.store
    p.pending = [] ∧
      WrittenBack p ms t ⟨milk, .tags⟩ s.pipeline.store.memory written.memory ∧
      written.notes.map (·.title) = [("Tea" : Text)] ∧
      written.notes.map (·.suggestedTags) = [[("Milk" : Text)]] := by
  intro t milk p ms s written
  obtain ⟨-, -, -, -, hwrite, -⟩ := writtenBack_run (p := p) rfl ms
  exact ⟨rfl, (hwrite t ⟨milk, .tags⟩ _ [] rfl rfl).2, by decide +kernel, by decide +kernel⟩

end Pipeline

end Notebook
