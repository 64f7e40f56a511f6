import Mathlib.Data.List.Induction
import Notebook.Note.Record
import Notebook.Proofs.Store.Traffic

/-!
# Jobs in the order of the queue

Whatever clients call for while the writer works, the notes are those that one gets by doing the
jobs one after the other, in the order in which they came into the queue.
-/

namespace Notebook

namespace Traffic

/-! ### One job after the other -/

/-- Memory when jobs have been done one after the other, each at its moment. -/
def inTurn (m : Memory) (ps : List (Moment × Ticket)) : Memory :=
  ps.foldl (fun m p => (Memory.run p.1 p.2.job m).1) m

/-- The jobs that these jobs submit. -/
def submissions (m : Memory) : List (Moment × Ticket) → List Job
  | [] => []
  | p :: ps => (Memory.run p.1 p.2.job m).2 ++ submissions (Memory.run p.1 p.2.job m).1 ps

theorem inTurn_concat (m : Memory) (ps : List (Moment × Ticket)) (p : Moment × Ticket) :
    inTurn m (ps ++ [p]) = (Memory.run p.1 p.2.job (inTurn m ps)).1 := by simp [inTurn]

theorem submissions_concat (m : Memory) (ps : List (Moment × Ticket)) (p : Moment × Ticket) :
    submissions m (ps ++ [p]) =
      submissions m ps ++ (Memory.run p.1 p.2.job (inTurn m ps)).2 := by
  induction ps generalizing m with
  | nil => simp [submissions, inTurn]
  | cons q ps ih =>
    simp only [List.cons_append, submissions, ih, List.append_assoc]
    rfl

/-- The jobs among these that the writer has queued. -/
def byWriter (ts : List Ticket) : List Job := (ts.filter (·.author = .writer)).map (·.job)

theorem byWriter_append (ts ts' : List Ticket) :
    byWriter (ts ++ ts') = byWriter ts ++ byWriter ts' := by simp [byWriter]

theorem byWriter_own (js : List Job) : byWriter (js.map (⟨.writer, ·⟩)) = js := by
  unfold byWriter
  rw [List.filter_eq_self.mpr (by simp), List.map_map]
  exact List.map_id js

/-- The jobs that the change at hand has submitted so far. -/
def submitting (s : Traffic) : List Job :=
  match s.writer with
  | .idle _ => []
  | .busy _ _ c _ => c.submitted

/-- Memory is what the jobs that are done make of it in turn, and in the middle of a change what
the actions up to now make of that. -/
def Follows (m : Memory) (s : Traffic) : Prop :=
  match s.writer with
  | .idle m' => m' = inTurn m s.done
  | .busy t start c left => ∃ id n past, t.job = .change id (past ++ left) ∧
      (inTurn m s.done).notes.get? id = some n ∧
      (Memory.Change.mk id n true (inTurn m s.done) []).acts start past = (c, true)

/-- What was taken down agrees with the jobs at hand, with what these have submitted so far, and
with the ids of the notes. -/
structure Tally (m : Memory) (s : Traffic) (atHand : List Ticket) (submitted : List Job)
    (ids : List Text) : Prop where
  /-- Every job that was queued is done, at hand or in the queue, once and in order. -/
  fifo : s.queued = s.done.map Prod.snd ++ atHand ++ s.queue
  /-- Of its own accord the writer queues what changes submit, each job once. -/
  own : byWriter s.queued = submissions m s.done ++ submitted
  /-- A client waits just as long as its job is not done. -/
  pending : ∀ name, (atHand ++ s.queue).countP (·.awaitedBy name) =
    if s.phase name = .waiting then 1 else 0
  /-- The notes stand in the order in which they came. -/
  order : ids = arranged m.notes.keys s.writes

/-- A state that is reached from `m` by doing jobs in the order of the queue. -/
structure Linear (m : Memory) (s : Traffic) : Prop
    extends Tally m s s.atHand s.submitting s.memory.notes.keys where
  follows : s.Follows m

theorem linear_new (m : Memory) : (new m).Linear m := ⟨⟨rfl, rfl, fun _ => rfl, rfl⟩, rfl⟩

/-! ### Steps of the writer -/

variable {m : Memory} {s : Traffic} {atHand : List Ticket} {submitted : List Job}
  {ids : List Text}

/-- Nothing of this depends on what the writer is at, but for the jobs at hand. -/
theorem Tally.turnTo (h : Tally m s atHand submitted ids) (w : Writer) :
    Tally m { s with writer := w } atHand submitted ids :=
  ⟨h.fifo, h.own, h.pending, h.order⟩

theorem Tally.takeUp (h : Tally m s [] submitted ids) {t : Ticket} {r : List Ticket}
    (hqueue : s.queue = t :: r) : Tally m { s with queue := r } [t] submitted ids := by
  obtain ⟨hfifo, hown, hpending, horder⟩ := h
  rw [hqueue] at hfifo hpending
  exact ⟨by simpa using hfifo, hown, hpending, horder⟩

/-- No client waits for what the writer queues. -/
theorem Tally.enqueue (h : Tally m s atHand submitted ids) (js : List Job) :
    Tally m (s.enqueue (js.map (⟨.writer, ·⟩))) atHand (submitted ++ js) ids where
  fifo := by simp [Traffic.enqueue, h.fifo]
  own := by
    show byWriter (s.queued ++ js.map (⟨.writer, ·⟩)) = submissions m s.done ++ (submitted ++ js)
    rw [byWriter_append, byWriter_own, h.own, List.append_assoc]
  pending := by
    intro name
    have hnone : (js.map (⟨.writer, ·⟩)).countP (Ticket.awaitedBy name) = 0 := by
      rw [List.countP_map, List.countP_eq_zero]
      simp [Ticket.awaitedBy]
    rw [Traffic.enqueue, ← List.append_assoc, List.countP_append, hnone]
    exact h.pending name
  order := h.order

theorem Tally.write (h : Tally m s atHand submitted ids) (ws : List Write) :
    Tally m { s with writes := s.writes ++ ws } atHand submitted (arranged ids ws) where
  fifo := h.fifo
  own := h.own
  pending := h.pending
  order := by rw [h.order, arranged_append]

theorem Tally.finish {t : Ticket} {start : Moment} {m' : Memory}
    (h : Tally m s [t] submitted m'.notes.keys)
    (hrun : Memory.run start t.job (inTurn m s.done) = (m', submitted)) :
    (s.finish t start m').Linear m where
  fifo := by simpa [Traffic.finish, Traffic.atHand] using h.fifo
  own := by
    show _ = submissions m (s.done ++ [(start, t)]) ++ []
    rw [submissions_concat, hrun, List.append_nil]
    exact h.own
  pending := by
    intro name
    have hcount := h.pending name
    rw [List.singleton_append, List.countP_cons] at hcount
    show s.queue.countP (·.awaitedBy name) =
      if (if t.awaitedBy name then Phase.answered else s.phase name) = .waiting then 1 else 0
    by_cases ht : t.awaitedBy name = true
    · -- The client that has waited for this job waits for no other one.
      simp only [ht, if_true] at hcount
      simp only [ht, if_true, reduceCtorEq, if_false]
      split at hcount <;> omega
    · simpa [ht] using hcount
  order := h.order
  follows := by
    show m' = inTurn m (s.done ++ [(start, t)])
    rw [inTurn_concat, hrun]

/-- What is known between two jobs. -/
theorem Linear.idle (h : s.Linear m) {m' : Memory} (hidle : s.writer = .idle m') :
    m' = inTurn m s.done ∧ Tally m s [] [] m'.notes.keys := by
  obtain ⟨htally, hfollows⟩ := h
  unfold Follows at hfollows
  unfold Traffic.atHand submitting memory at htally
  rw [hidle] at hfollows htally
  exact ⟨hfollows, htally⟩

/-- What is known in the middle of a change. -/
theorem Linear.busy (h : s.Linear m) {t : Ticket} {start : Moment} {c : Memory.Change}
    {left : List Action} (hbusy : s.writer = .busy t start c left) :
    (∃ id n past, t.job = .change id (past ++ left) ∧
      (inTurn m s.done).notes.get? id = some n ∧
      (Memory.Change.mk id n true (inTurn m s.done) []).acts start past = (c, true)) ∧
      Tally m s [t] c.submitted c.memory.notes.keys := by
  obtain ⟨htally, hfollows⟩ := h
  unfold Follows at hfollows
  unfold Traffic.atHand submitting memory at htally
  rw [hbusy] at hfollows htally
  exact ⟨hfollows, htally⟩

theorem Linear.begin (h : s.Linear m) {m' : Memory} {t : Ticket} {r : List Ticket}
    (hidle : s.writer = .idle m') (hqueue : s.queue = t :: r) (now : Moment) :
    (({ s with queue := r } : Traffic).begin now t m').Linear m := by
  obtain ⟨rfl, htally⟩ := h.idle hidle
  have htaken := htally.takeUp hqueue
  unfold Traffic.begin
  cases hjob : t.job with
  | change id actions =>
    simp only
    cases hn : (inTurn m s.done).notes.get? id with
    | some n =>
      exact ⟨htaken.turnTo (.busy t now ⟨id, n, true, inTurn m s.done, []⟩ actions),
        id, n, [], hjob, hn, rfl⟩
    | none =>
      refine htaken.finish ?_
      rw [hjob]
      simp only [Memory.run, Memory.change, hn]
  | add n =>
    have hadded := htaken.write [.file n.id]
    rw [← Memory.keys_add] at hadded
    exact hadded.finish (by rw [hjob]; rfl)
  | delete id =>
    have hdeleted := htaken.write [.remove id]
    rw [← Memory.keys_delete] at hdeleted
    exact hdeleted.finish (by rw [hjob]; rfl)

theorem Linear.act (h : s.Linear m) {t : Ticket} {start : Moment} {c : Memory.Change}
    {a : Action} {left : List Action} (hbusy : s.writer = .busy t start c (a :: left)) :
    (s.act t start c a left).Linear m := by
  obtain ⟨⟨id, n, past, hjob, hn, hacts⟩, htally⟩ := h.busy hbusy
  have hplaced : c.Placed := Memory.Change.Placed.acts (fun _ => hn) hacts
  have hacted := (htally.enqueue a.submits).write (a.writes start)
  rw [← Memory.Change.submitted_act start c a, ← Memory.Change.keys_act hplaced start a] at hacted
  cases hact : c.act start a with
  | mk d goesOn =>
    rw [hact] at hacted
    simp only [Traffic.act, hact]
    cases goesOn with
    | true =>
      refine ⟨hacted.turnTo (.busy t start d left), id, n, past ++ [a], by simpa using hjob, hn, ?_⟩
      have hgoesOn : c.acts start [a] = (d, true) := by simp [Memory.Change.acts, hact]
      exact (Memory.Change.acts_append hacts [a]).trans hgoesOn
    | false =>
      refine Tally.finish hacted ?_
      have hend : c.acts start (a :: left) = (d, false) := by simp [Memory.Change.acts, hact]
      rw [hjob]
      exact Memory.change_of_acts hn ((Memory.Change.acts_append hacts _).trans hend)

theorem Linear.work (h : s.Linear m) (now : Moment) : (s.work now).Linear m := by
  unfold Traffic.work
  cases hw : s.writer with
  | idle m' =>
    simp only
    cases hqueue : s.queue with
    | nil => exact h
    | cons t r => exact h.begin hw hqueue now
  | busy t start c left =>
    cases left with
    | nil =>
      obtain ⟨⟨id, n, past, hjob, hn, hacts⟩, htally⟩ := h.busy hw
      have hplaced : c.Placed := Memory.Change.Placed.acts (fun _ => hn) hacts
      rw [← Memory.Change.keys_close hplaced start true] at htally
      refine Tally.finish htally ?_
      rw [hjob, List.append_nil]
      exact Memory.change_of_acts hn hacts
    | cons a left => exact h.act hw

/-! ### Steps of clients -/

theorem Linear.call (h : s.Linear m) {name : Nat} (hfree : s.phase name = .free) (j : Job) :
    ({ s.enqueue [⟨.client name, j⟩] with
        phase := if j.isAwaited then Function.update s.phase name .waiting else s.phase } :
      Traffic).Linear m := by
  obtain ⟨⟨hfifo, hown, hpending, horder⟩, hfollows⟩ := h
  refine ⟨⟨?_, ?_, fun name' => ?_, horder⟩, hfollows⟩
  · simp only [Traffic.enqueue, hfifo, List.append_assoc]
    rfl
  · exact (byWriter_append _ _).trans ((List.append_nil _).trans hown)
  · have hcount := hpending name'
    show (s.atHand ++ (s.queue ++ [(⟨.client name, j⟩ : Ticket)])).countP (·.awaitedBy name') =
      if (if j.isAwaited then Function.update s.phase name .waiting else s.phase) name' = .waiting
        then 1 else 0
    rw [← List.append_assoc, List.countP_append, hcount, List.countP_singleton]
    by_cases hname : name = name'
    · subst hname
      cases hj : j.isAwaited <;> simp [Ticket.awaitedBy, hj, hfree]
    · cases hj : j.isAwaited <;>
        simp [Ticket.awaitedBy, hj, hname, Function.update_of_ne (Ne.symm hname)]

theorem Linear.goOn (h : s.Linear m) {name : Nat} (hanswered : s.phase name = .answered) :
    ({ s with phase := Function.update s.phase name .free } : Traffic).Linear m := by
  obtain ⟨⟨hfifo, hown, hpending, horder⟩, hfollows⟩ := h
  refine ⟨⟨hfifo, hown, fun name' => ?_, horder⟩, hfollows⟩
  have hcount := hpending name'
  show (s.atHand ++ s.queue).countP (·.awaitedBy name') =
    if Function.update s.phase name .free name' = .waiting then 1 else 0
  rw [hcount]
  by_cases hname : name' = name
  · subst hname
    simp [hanswered]
  · rw [Function.update_of_ne hname]

theorem Linear.step (h : s.Linear m) (e : Event) : (s.step e).Linear m := by
  cases e with
  | call name j =>
    simp only [Traffic.step]
    split
    · next hfree => exact h.call hfree j
    · exact h
  | goOn name =>
    simp only [Traffic.step]
    split
    · next hanswered => exact h.goOn hanswered
    · exact h
  | work now => exact h.work now

theorem linear_of_run (m : Memory) (events : List Event) : ((new m).run events).Linear m := by
  induction events using List.reverseRecOn with
  | nil => exact linear_new m
  | append_singleton events e ih =>
    rw [run_concat]
    exact ih.step e

/-! ### What clients call for -/

/-- The jobs among these that clients have queued. -/
def byClients (ts : List Ticket) : List Ticket := ts.filter (·.author ≠ .writer)

/-- The calls that come through, in order: a client that waits does not call. -/
def accepted (s : Traffic) : List Event → List Ticket
  | [] => []
  | .call name j :: events =>
    (if s.phase name = .free then [⟨.client name, j⟩] else []) ++
      accepted (s.step (.call name j)) events
  | e :: events => accepted (s.step e) events

theorem exists_queued_work (s : Traffic) (now : Moment) :
    ∃ js : List Job, (s.work now).queued = s.queued ++ js.map (⟨.writer, ·⟩) := by
  unfold Traffic.work
  split
  · split
    · exact ⟨[], by simp⟩
    · refine ⟨[], ?_⟩
      unfold Traffic.begin
      split
      · split <;> simp [finish]
      · simp [finish]
  · exact ⟨[], by simp [finish]⟩
  · next t start c a left _ =>
    refine ⟨a.submits, ?_⟩
    simp only [Traffic.act]
    split <;> rfl

theorem byClients_work (s : Traffic) (now : Moment) :
    byClients (s.work now).queued = byClients s.queued := by
  obtain ⟨js, hjs⟩ := exists_queued_work s now
  rw [hjs]
  simp [byClients]

theorem byClients_run (s : Traffic) (events : List Event) :
    byClients (s.run events).queued = byClients s.queued ++ accepted s events := by
  induction events generalizing s with
  | nil => simp [run, accepted]
  | cons e events ih =>
    show byClients ((s.step e).run events).queued = _
    rw [ih]
    cases e with
    | call name j =>
      simp only [accepted, ← List.append_assoc]
      congr 1
      simp only [Traffic.step]
      split
      · simp [enqueue, byClients]
      · simp
    | goOn name =>
      simp only [accepted, Traffic.step]
      split <;> rfl
    | work now =>
      show byClients (s.work now).queued ++ _ = _
      rw [byClients_work]
      rfl

/-! ### The next step -/

/-- What the next step of the writer comes to. -/
structure Turn (now : Moment) (s : Traffic) : Prop where
  /-- A change of a note that is gone is taken from the queue, and nothing else is done. -/
  gone : ∀ {m t r id actions}, s.writer = .idle m → s.queue = t :: r →
    t.job = .change id actions → m.notes.get? id = none →
    s.work now = { s with queue := r, done := s.done ++ [(now, t)] }
  /-- What a change adds is there at once, as if it had been the turn of that job.  The change goes
  on if the path of the store, if it has one, is a path. -/
  add : ∀ {t start c record n left}, s.writer = .busy t start c (.add record :: left) →
    Note.ofJson start record = .ok n →
    (s.work now).memory = (Memory.run start (.add n) s.memory).1 ∧
      (s.work now).queue = s.queue ∧ (s.memory.OnPath → (s.work now).atHand = [t])
  /-- What a change deletes is gone at once. -/
  delete : ∀ {t start c id left}, s.writer = .busy t start c (.delete id :: left) →
    (s.work now).memory = (Memory.run start (.delete id) s.memory).1 ∧
      (s.work now).queue = s.queue ∧ (s.memory.OnPath → (s.work now).atHand = [t])
  /-- What a change submits goes behind all that is in the queue. -/
  submit : ∀ {t start c id actions left},
    s.writer = .busy t start c (.submit id actions :: left) →
    (s.work now).memory = s.memory ∧
      (s.work now).queue = s.queue ++ [⟨.writer, .change id actions⟩] ∧
      (s.work now).atHand = [t]
  /-- A change that is given up leaves all that it has done.  The failing action has done nothing,
  but suggestions are written down even if their confidences are no numbers, and a note is added or
  deleted even if that cannot be written to a path that is none. -/
  giveUp : ∀ {t start c a left}, s.writer = .busy t start c (a :: left) →
    (c.act start a).2 = false →
    (s.work now).atHand = [] ∧ (s.work now).queue = s.queue ∧
      (s.work now).done = s.done ++ [(start, t)] ∧
      ((s.work now).memory = s.memory ∨
        (∃ tags confidences time, a = .suggest tags confidences time ∧
          (s.work now).memory = (c.put { c.subject with
            suggestedTags :=
              (Memory.Change.newTags c.subject.tags tags confidences).map Prod.fst }).memory) ∨
        ∃ j, a.inline? start = some j ∧ (Memory.failureOf? j s.memory).isSome = true ∧
          (s.work now).memory = (Memory.run start j s.memory).1)

/-- With an action of a change the notes become what the action makes of them. -/
theorem memory_work_of_busy (now : Moment) {s : Traffic} {t : Ticket} {start : Moment}
    {c : Memory.Change} {a : Action} {left : List Action}
    (hbusy : s.writer = .busy t start c (a :: left)) :
    (s.work now).memory = (c.act start a).1.memory ∧
      (s.work now).queue = s.queue ++ a.submits.map (⟨.writer, ·⟩) := by
  simp only [Traffic.work, hbusy, Traffic.act]
  split <;> exact ⟨rfl, rfl⟩

theorem atHand_work_of_busy (now : Moment) {s : Traffic} {t : Ticket} {start : Moment}
    {c : Memory.Change} {a : Action} {left : List Action}
    (hbusy : s.writer = .busy t start c (a :: left)) (h : (c.act start a).2 = true) :
    (s.work now).atHand = [t] := by
  simp [Traffic.work, hbusy, Traffic.act, h, atHand]

theorem turn (now : Moment) (s : Traffic) : s.Turn now where
  gone {m t r id actions} hidle hqueue hjob hn := by
    have hphase : answer t s.phase = s.phase := by
      funext name
      simp [answer, Ticket.awaitedBy, hjob, Job.isAwaited]
    simp only [Traffic.work, hidle, hqueue, Traffic.begin, hjob, hn, finish, hphase]
  add {t start c record n left} hbusy hn := by
    have hmemory : s.memory = c.memory := by simp [memory, hbusy]
    have hact : (c.act start (.add record)).1.memory = c.memory.add n := by
      simp [Memory.Change.act, hn]
    obtain ⟨hmemory', hqueue⟩ := memory_work_of_busy now hbusy
    refine ⟨by rw [hmemory', hact, hmemory]; rfl, by simpa [Action.submits] using hqueue,
      fun h => ?_⟩
    have hgoesOn : (c.act start (.add record)).2 = true := by
      rw [hmemory] at h
      have hnone : (c.memory.withNote n).failure? = none := h.failureOf? (.add n)
      simp [Memory.Change.act, hn, hnone]
    exact atHand_work_of_busy now hbusy hgoesOn
  delete {t start c id left} hbusy := by
    have hmemory : s.memory = c.memory := by simp [memory, hbusy]
    obtain ⟨hmemory', hqueue⟩ := memory_work_of_busy now hbusy
    refine ⟨by rw [hmemory', hmemory]; rfl, by simpa [Action.submits] using hqueue, fun h => ?_⟩
    have hgoesOn : (c.act start (.delete id)).2 = true := by
      rw [hmemory] at h
      simp [Memory.Change.act, h.deleteFailure? id]
    exact atHand_work_of_busy now hbusy hgoesOn
  submit {t start c id actions left} hbusy := by
    simp [Traffic.work, hbusy, Traffic.act, Memory.Change.act, memory, atHand, enqueue,
      Action.submits]
  giveUp {t start c a left} hbusy hfalse := by
    obtain ⟨hsubmits, hact⟩ := Memory.Change.act_of_false hfalse
    have hwork : s.work now = ({ s with writes := s.writes ++ a.writes start } : Traffic).finish t
        start (c.act start a).1.memory := by
      simp [Traffic.work, hbusy, Traffic.act, hfalse, hsubmits, enqueue, Memory.Change.close]
    rw [hwork]
    refine ⟨rfl, rfl, rfl, ?_⟩
    have hmemory : s.memory = c.memory := by simp [memory, hbusy]
    rcases hact with hsame | ⟨tags, confidences, time, rfl, hput⟩ | ⟨j, hj, hfailure, hrun⟩
    · left
      simp [finish, memory, hsame, hbusy]
    · exact .inr (.inl ⟨tags, confidences, time, rfl, congrArg Memory.Change.memory hput⟩)
    · rw [hmemory]
      exact .inr (.inr ⟨j, hj, hfailure, hrun⟩)

/-! ### Any traffic -/

/-- A client that does not wait has had all its notes added and deleted. -/
theorem Linear.awaited (h : s.Linear m) {name : Nat} (hname : s.phase name ≠ .waiting) :
    s.queued.filter (·.awaitedBy name) = (s.done.map Prod.snd).filter (·.awaitedBy name) := by
  have hnone := h.pending name
  rw [if_neg hname, List.countP_eq_zero] at hnone
  rw [h.fifo, List.append_assoc, List.filter_append, List.filter_eq_nil_iff.mpr hnone,
    List.append_nil]

/-- Whatever clients do while the writer works: the calls that come through are queued in the order
in which they are made; the jobs are done in the order of the queue, as if they were done one
after the other; a client goes on when its notes are added and deleted; each step of the writer is
as it should be, and the steps for a job make up one step of the channel. -/
theorem linear_run (m : Memory) (events : List Event) :
    let s := (new m).run events
    byClients s.queued = accepted (new m) events ∧
      s.Linear m ∧
      (∀ name, s.phase name ≠ .waiting →
        s.queued.filter (·.awaitedBy name) = (s.done.map Prod.snd).filter (·.awaitedBy name)) ∧
      (∀ now, s.Turn now) ∧
      ∀ now, s.atHand = [] →
        ∃ k, (s.run (List.replicate k (.work now))).atHand = [] ∧
          (s.run (List.replicate k (.work now))).channel = s.channel.step (Memory.worker now) := by
  intro s
  have hlinear : s.Linear m := linear_of_run m events
  exact ⟨byClients_run (new m) events, hlinear, fun _ => hlinear.awaited, fun now => turn now s,
    fun now => exists_run_eq_step now⟩

/-- While a change is under way that deletes a note, adds one, submits a change of another and gives
up, one client deletes that other note and one adds the first again.  A client that waits cannot
call. -/
def crowded (t : Moment) : List Event :=
  [.call 0 (.change "a" [.delete "a", .add (.obj [("id", .str "c")]),
      .submit "b" [.appendTag "hot"], .fail]),
    .work t, .call 1 (.delete "b"), .work t, .call 0 (.add (.plain "a" "milk" t)),
    .call 1 (.delete "c"), .work t, .work t, .work t, .work t, .work t]

theorem linear_run_crowded :
    let t := Moment.ofDate .first
    let m : Memory := ⟨Memory.filed [.plain "a" "milk" t, .plain "b" "tea" t], [], none, .idle⟩
    let s := (new m).run (crowded t)
    s.memory.notes.keys = [("c" : Text), "a"] ∧
      s.phase 0 ≠ .waiting ∧
      s.queued.filter (·.awaitedBy 0) = (s.done.map Prod.snd).filter (·.awaitedBy 0) ∧
      s.atHand = [] ∧
      ∃ k, (s.run (List.replicate k (.work t))).atHand = [] ∧
        (s.run (List.replicate k (.work t))).channel = s.channel.step (Memory.worker t) := by
  intro t m
  obtain ⟨-, -, hawaited, -, halone⟩ := linear_run m (crowded t)
  have hkeys : ((new m).run (crowded t)).memory.notes.keys = [("c" : Text), "a"] := by
    decide +kernel
  have hphase : ((new m).run (crowded t)).phase 0 ≠ .waiting := by decide +kernel
  have hfree : ((new m).run (crowded t)).atHand = [] := List.isEmpty_iff.mp (by decide +kernel)
  exact ⟨hkeys, hphase, hawaited 0 hphase, hfree, halone t hfree⟩

end Traffic

end Notebook
