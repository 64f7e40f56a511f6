import Mathlib.Logic.Function.Basic
import Notebook.Proofs.Store.Filed
import Notebook.Proofs.Store.OnPath

/-!
# Stores with many clients

Traffic is the local note store, which `Store` has call by call, with any number of clients who call
on it while its writer works.  A call puts a job into the queue; whoever adds or deletes a note
waits until the writer has done that.  The writer carries out a mutation one action at a time, and
clients may call between any two of its steps.

What was queued, done and written so far is taken down for later; no step depends on it.
-/

namespace Notebook

/-! ### Changes action by action -/

/-- Does the one who calls for a job wait until it is done? -/
def Job.isAwaited : Job → Bool
  | .change .. => false
  | _ => true

/-- What is done to the list of notes, without their contents. -/
inductive Write
  | file (id : Text)
  | remove (id : Text)

/-- The ids of the notes, in order, after a writing.  An id that is there keeps its place. -/
def Write.apply (ids : List Text) : Write → List Text
  | .file id => if id ∈ ids then ids else ids ++ [id]
  | .remove id => ids.filter (· ≠ id)

/-- The same for writings one after the other. -/
def arranged (ids : List Text) (ws : List Write) : List Text := ws.foldl Write.apply ids

def Job.writes : Job → List Write
  | .add n => [.file n.id]
  | .delete id => [.remove id]
  | .change .. => []

/-- What an action writes at once, in the middle of a change. -/
def Action.writes (now : Moment) : Action → List Write
  | .add record =>
    match Note.ofJson now record with
    | .ok n => [.file n.id]
    | _ => []
  | .delete id => [.remove id]
  | _ => []

/-- The job that is done at once with an action. -/
def Action.inline? (now : Moment) : Action → Option Job
  | .add record =>
    match Note.ofJson now record with
    | .ok n => some (.add n)
    | _ => none
  | .delete id => some (.delete id)
  | _ => none

/-- What an action leaves to be done later. -/
def Action.submits : Action → List Job
  | .submit id actions => [.change id actions]
  | _ => []

theorem arranged_append (ids : List Text) (ws ws' : List Write) :
    arranged ids (ws ++ ws') = arranged (arranged ids ws) ws' := by simp [arranged]

namespace Memory

theorem keys_add (n : Note) (m : Memory) :
    (m.add n).notes.keys = arranged m.notes.keys [.file n.id] := by
  rw [notes_add, Keyed.keys_insert]
  rfl

theorem keys_delete (id : Text) (m : Memory) :
    (m.delete id).notes.keys = arranged m.notes.keys [.remove id] := by
  rw [notes_delete, Keyed.keys_erase]
  rfl

namespace Change

/-- The subject of a change stands under its id, as long as it is filed at all. -/
def Placed (c : Change) : Prop := c.filed = true → c.memory.notes.get? c.id = some c.subject

theorem placed_put (c : Change) (n : Note) : (c.put n).Placed := by
  intro hfiled
  have hfiled : c.filed = true := hfiled
  simp [Change.put, hfiled, Keyed.get?_insert]

theorem Placed.act {c : Change} (h : c.Placed) (now : Moment) (a : Action) :
    (c.act now a).1.Placed := by
  cases a with
  | set field value =>
    simp only [Change.act]
    split
    · exact placed_put _ _
    · exact h
  | appendTag tag => exact placed_put _ _
  | fail => exact h
  | add record =>
    simp only [Change.act]
    split
    · next n hn =>
      intro hfiled
      simp only [Bool.and_eq_true, decide_eq_true_eq] at hfiled
      show (c.memory.add n).notes.get? c.id = some c.subject
      rw [notes_add, Keyed.get?_insert, if_neg fun hid => hfiled.2 hid.symm]
      exact h hfiled.1
    · exact h
  | delete id =>
    intro hfiled
    simp only [Change.act, Bool.and_eq_true, decide_eq_true_eq] at hfiled
    show (c.memory.delete id).notes.get? c.id = some c.subject
    rw [notes_delete, Keyed.get?_erase, if_neg fun hid => hfiled.2 hid.symm]
    exact h hfiled.1
  | submit id actions => exact h
  | suggest tags confidences time =>
    simp only [Change.act]
    split
    · exact placed_put _ _
    · exact placed_put _ _
  | embed g => exact placed_put _ _

theorem keys_put {c : Change} (h : c.Placed) (n : Note) :
    (c.put n).memory.notes.keys = c.memory.notes.keys := by
  unfold Change.put
  simp only
  split
  · next hfiled =>
    have hmem : c.id ∈ c.memory.notes.keys := by
      rw [← Keyed.isSome_get?_iff, h hfiled]
      rfl
    rw [Keyed.keys_insert, if_pos hmem]
  · rfl

theorem keys_act {c : Change} (h : c.Placed) (now : Moment) (a : Action) :
    (c.act now a).1.memory.notes.keys = arranged c.memory.notes.keys (a.writes now) := by
  cases a with
  | set field value =>
    simp only [Change.act]
    split
    · exact keys_put h _
    · rfl
  | appendTag tag => exact keys_put h _
  | fail => rfl
  | add record =>
    simp only [Change.act, Action.writes]
    cases Note.ofJson now record with
    | ok n => exact keys_add n c.memory
    | faulty fs => rfl
    | broken b => rfl
  | delete id => exact keys_delete _ _
  | submit id actions => rfl
  | suggest tags confidences time =>
    simp only [Change.act]
    split
    · exact (keys_put (placed_put _ _) _).trans (keys_put h _)
    · exact keys_put h _
  | embed g => exact keys_put h _

theorem submitted_act (now : Moment) (c : Change) (a : Action) :
    (c.act now a).1.submitted = c.submitted ++ a.submits := by
  cases a with
  | set | add | suggest =>
    simp only [Change.act, Action.submits]
    split <;> simp [submitted_put]
  | appendTag | fail | delete | submit | embed => simp [Change.act, Action.submits, submitted_put]

/-- An action that ends a change has done nothing, but for suggestions, which are written down
before their confidences are found to be no numbers, and for notes that are added or deleted before
the path of the store is found to be none. -/
theorem act_of_false {now : Moment} {c : Change} {a : Action} (h : (c.act now a).2 = false) :
    a.submits = [] ∧ ((c.act now a).1 = c ∨
      (∃ tags confidences time, a = .suggest tags confidences time ∧
        (c.act now a).1 = c.put { c.subject with
          suggestedTags := (newTags c.subject.tags tags confidences).map Prod.fst }) ∨
      ∃ j, a.inline? now = some j ∧ (failureOf? j c.memory).isSome = true ∧
        (c.act now a).1.memory = (Memory.run now j c.memory).1) := by
  cases a with
  | set field value =>
    refine ⟨rfl, .inl ?_⟩
    simp only [Change.act] at h ⊢
    split at h
    · cases h
    · rfl
  | add record =>
    refine ⟨rfl, ?_⟩
    simp only [Change.act, Action.inline?] at h ⊢
    cases hn : Note.ofJson now record with
    | ok n =>
      simp only [hn] at h ⊢
      exact .inr (.inr ⟨.add n, rfl, by simpa [failureOf?] using h, rfl⟩)
    | faulty fs => exact .inl rfl
    | broken b => exact .inl rfl
  | delete id =>
    have h : (c.memory.deleteFailure? id).isNone = false := h
    exact ⟨rfl, .inr (.inr ⟨.delete id, rfl, by simpa [failureOf?] using h, rfl⟩)⟩
  | suggest tags confidences time =>
    refine ⟨rfl, .inr (.inl ⟨tags, confidences, time, rfl, ?_⟩)⟩
    simp only [Change.act] at h ⊢
    split at h
    · cases h
    · rfl
  | fail => exact ⟨rfl, .inl rfl⟩
  | appendTag | submit | embed => cases h

/-- Actions that go through leave the change where the rest of them begins. -/
theorem acts_append {now : Moment} {c d : Change} {past : List Action}
    (h : c.acts now past = (d, true)) (left : List Action) :
    c.acts now (past ++ left) = d.acts now left := by
  induction past generalizing c with
  | nil =>
    cases h
    rfl
  | cons a past ih =>
    cases hact : c.act now a with
    | mk e goesOn =>
      simp only [acts, hact, List.cons_append] at h ⊢
      cases goesOn with
      | true => exact ih h
      | false => cases h

/-- Memory when a change has come to its end or was given up. -/
def close (now : Moment) (c : Change) (ended : Bool) : Memory :=
  if ended then (c.put (c.subject.touch now)).memory.persist else c.memory

theorem Placed.acts {now : Moment} {c d : Change} (h : c.Placed) {past : List Action}
    (hd : c.acts now past = (d, true)) : d.Placed := by
  induction past generalizing c with
  | nil =>
    cases hd
    exact h
  | cons a past ih =>
    have hact := h.act now a
    cases he : c.act now a with
    | mk e goesOn =>
      rw [he] at hact
      simp only [Change.acts, he] at hd
      cases goesOn with
      | true => exact ih hact hd
      | false => cases hd

theorem keys_close {c : Change} (h : c.Placed) (now : Moment) (ended : Bool) :
    (c.close now ended).notes.keys = c.memory.notes.keys := by
  cases ended with
  | false => rfl
  | true =>
    show (c.put (c.subject.touch now)).memory.persist.notes.keys = _
    rw [notes_persist, keys_put h]

end Change

/-- A change is told by the actions that it carries out. -/
theorem change_of_acts {now : Moment} {id : Text} {n : Note} {m : Memory}
    {actions : List Action} {c : Change} {ended : Bool} (hn : m.notes.get? id = some n)
    (h : (Change.mk id n true m []).acts now actions = (c, ended)) :
    m.change now id actions = (c.close now ended, c.submitted) := by
  simp only [change, hn, h]
  cases ended <;> rfl

end Memory

/-! ### Traffic -/

/-- Who has put a job into the queue: a client, or the writer in the middle of a change. -/
inductive Author
  | client (name : Nat)
  | writer
  deriving DecidableEq

structure Ticket where
  author : Author
  job : Job

/-- Is there a client of this name that waits for the job? -/
def Ticket.awaitedBy (name : Nat) (t : Ticket) : Bool :=
  t.author = .client name && t.job.isAwaited

inductive Phase
  | free
  | waiting
  /-- The job is done; the client has not gone on yet. -/
  | answered
  deriving DecidableEq

/-- What the writer is at. -/
inductive Writer
  | idle (m : Memory)
  /-- It carries out a change that began at the moment `start`. -/
  | busy (t : Ticket) (start : Moment) (c : Memory.Change) (left : List Action)

structure Traffic where
  writer : Writer
  queue : List Ticket
  phase : Nat → Phase
  /-- All that was ever put into the queue, in order. -/
  queued : List Ticket
  /-- All jobs that are done, in order, with the moments when they were begun. -/
  done : List (Moment × Ticket)
  writes : List Write

namespace Traffic

inductive Event
  /-- A client calls for a job. -/
  | call (name : Nat) (j : Job)
  /-- A client that has waited goes on. -/
  | goOn (name : Nat)
  /-- The writer takes its next step. -/
  | work (now : Moment)

def new (m : Memory) : Traffic := ⟨.idle m, [], fun _ => .free, [], [], []⟩

def memory (s : Traffic) : Memory :=
  match s.writer with
  | .idle m => m
  | .busy _ _ c _ => c.memory

/-- The job that the writer is at. -/
def atHand (s : Traffic) : List Ticket :=
  match s.writer with
  | .idle _ => []
  | .busy t _ _ _ => [t]

def enqueue (ts : List Ticket) (s : Traffic) : Traffic :=
  { s with queue := s.queue ++ ts, queued := s.queued ++ ts }

/-- The phases of the clients when a job is done. -/
def answer (t : Ticket) (phase : Nat → Phase) : Nat → Phase :=
  fun name => if t.awaitedBy name then .answered else phase name

/-- The writer has come to the end of a job. -/
def finish (t : Ticket) (start : Moment) (m : Memory) (s : Traffic) : Traffic :=
  { s with writer := .idle m, done := s.done ++ [(start, t)], phase := answer t s.phase }

/-- The writer begins with a job. -/
def begin (now : Moment) (t : Ticket) (m : Memory) (s : Traffic) : Traffic :=
  match t.job with
  | .change id actions =>
    match m.notes.get? id with
    | some n => { s with writer := .busy t now ⟨id, n, true, m, []⟩ actions }
    | none => s.finish t now m
  | j => { s with writes := s.writes ++ j.writes }.finish t now (Memory.run now j m).1

/-- The writer carries out an action of a change. -/
def act (t : Ticket) (start : Moment) (c : Memory.Change) (a : Action) (left : List Action)
    (s : Traffic) : Traffic :=
  let (d, goesOn) := c.act start a
  let s := s.enqueue (a.submits.map (⟨.writer, ·⟩))
  let s := { s with writes := s.writes ++ a.writes start }
  if goesOn then { s with writer := .busy t start d left }
  else s.finish t start (d.close start false)

def work (now : Moment) (s : Traffic) : Traffic :=
  match s.writer with
  | .idle m =>
    match s.queue with
    | [] => s
    | t :: r => { s with queue := r }.begin now t m
  | .busy t start c [] => s.finish t start (c.close start true)
  | .busy t start c (a :: left) => s.act t start c a left

/-- A client that waits does not call. -/
def step (s : Traffic) : Event → Traffic
  | .call name j =>
    if s.phase name = .free then
      { s.enqueue [⟨.client name, j⟩] with
        phase := if j.isAwaited then Function.update s.phase name .waiting else s.phase }
    else s
  | .goOn name =>
    if s.phase name = .answered then
      { s with phase := Function.update s.phase name .free }
    else s
  | .work now => s.work now

def run (s : Traffic) (events : List Event) : Traffic := events.foldl step s

theorem run_concat (s : Traffic) (events : List Event) (e : Event) :
    s.run (events ++ [e]) = (s.run events).step e := by simp [run]

/-! ### The writer on its own -/

/-- What the writer works at, seen from outside. -/
def channel (s : Traffic) : Channel Memory Job := ⟨s.memory, s.queue.map (·.job), true, []⟩

theorem exists_run_busy {now : Moment} {t : Ticket} {left : List Action} {s : Traffic}
    {c d : Memory.Change} {ended : Bool} (hbusy : s.writer = .busy t now c left)
    (hacts : c.acts now left = (d, ended)) :
    ∃ k js, d.submitted = c.submitted ++ js ∧
      (s.run (List.replicate k (.work now))).writer = .idle (d.close now ended) ∧
      (s.run (List.replicate k (.work now))).queue = s.queue ++ js.map (⟨.writer, ·⟩) := by
  induction left generalizing s c with
  | nil =>
    cases hacts
    refine ⟨1, [], (List.append_nil _).symm, ?_, ?_⟩
    · simp [run, step, work, hbusy, finish]
    · simp [run, step, work, hbusy, finish]
  | cons a left ih =>
    have hsubmitted := Memory.Change.submitted_act now c a
    have hwork : s.work now = s.act t now c a left := by simp [work, hbusy]
    cases hact : c.act now a with
    | mk e goesOn =>
      rw [hact] at hsubmitted
      have hqueue : (s.work now).queue = s.queue ++ a.submits.map (⟨.writer, ·⟩) := by
        rw [hwork]
        cases goesOn <;> simp [act, hact, enqueue, finish]
      simp only [Memory.Change.acts, hact] at hacts
      cases goesOn with
      | false =>
        cases hacts
        refine ⟨1, a.submits, hsubmitted, ?_, hqueue⟩
        show (s.work now).writer = _
        simp [hwork, act, hact, finish]
      | true =>
        have hbusy' : (s.work now).writer = .busy t now e left := by simp [hwork, act, hact]
        obtain ⟨k, js, hjs, hwriter, hqueue'⟩ := ih hbusy' hacts
        refine ⟨k + 1, a.submits ++ js, ?_, hwriter, ?_⟩
        · rw [hjs, hsubmitted, List.append_assoc]
        · rw [List.map_append, ← List.append_assoc, ← hqueue]
          exact hqueue'

/-- A job is done as it is begun, or it is a change that has its actions before it. -/
theorem begin_cases (now : Moment) (t : Ticket) (m : Memory) (s : Traffic) :
    ((s.begin now t m).writer = .idle (Memory.run now t.job m).1 ∧
      (s.begin now t m).queue = s.queue ∧ (Memory.run now t.job m).2 = []) ∨
    ∃ id n actions, t.job = .change id actions ∧ m.notes.get? id = some n ∧
      s.begin now t m = { s with writer := .busy t now ⟨id, n, true, m, []⟩ actions } := by
  unfold begin
  cases hjob : t.job with
  | change id actions =>
    cases hn : m.notes.get? id with
    | none => exact .inl (by simp [hn, finish, Memory.run, Memory.change])
    | some n => exact .inr ⟨id, n, actions, rfl, hn, by simp [hn]⟩
  | add n => exact .inl ⟨rfl, rfl, rfl⟩
  | delete id => exact .inl ⟨rfl, rfl, rfl⟩

theorem atHand_eq_nil_iff {s : Traffic} : s.atHand = [] ↔ ∃ m, s.writer = .idle m := by
  unfold atHand
  cases s.writer <;> simp

theorem channel_of_idle {s : Traffic} {m : Memory} (hidle : s.writer = .idle m) :
    s.channel = ⟨m, s.queue.map (·.job), true, []⟩ := by simp [channel, memory, hidle]

/-- Left alone, the writer comes to the end of the next job and has done just that. -/
theorem exists_run_eq_step (now : Moment) {s : Traffic} (hfree : s.atHand = []) :
    ∃ k, (s.run (List.replicate k (.work now))).atHand = [] ∧
      (s.run (List.replicate k (.work now))).channel = s.channel.step (Memory.worker now) := by
  obtain ⟨m, hidle⟩ := atHand_eq_nil_iff.mp hfree
  cases hqueue : s.queue with
  | nil => exact ⟨0, hfree, by simp [run, Channel.step, channel, hqueue]⟩
  | cons t r =>
    have hwork : s.work now = ({ s with queue := r } : Traffic).begin now t m := by
      simp [work, hidle, hqueue]
    have hstep : s.channel.step (Memory.worker now) =
        ⟨(Memory.run now t.job m).1, r.map (·.job) ++ (Memory.run now t.job m).2, true, []⟩ := by
      simp [Channel.step, channel_of_idle hidle, hqueue, Memory.worker]
    rw [hstep]
    rcases begin_cases now t m { s with queue := r } with
      ⟨hwriter, hqueue', hnone⟩ | ⟨id, n, actions, hjob, hn, hbegin⟩
    · rw [← hwork] at hwriter hqueue'
      refine ⟨1, atHand_eq_nil_iff.mpr ⟨_, hwriter⟩, ?_⟩
      show (s.work now).channel = _
      rw [channel_of_idle hwriter, hqueue', hnone, List.append_nil]
    · rw [← hwork] at hbegin
      cases hacts : (Memory.Change.mk id n true m []).acts now actions with
      | mk d ended =>
        have hbusy : (s.work now).writer = .busy t now ⟨id, n, true, m, []⟩ actions := by
          rw [hbegin]
        obtain ⟨k, js, hjs, hwriter, hqueue'⟩ := exists_run_busy hbusy hacts
        have hrun : Memory.run now t.job m = (d.close now ended, d.submitted) := by
          rw [hjob]
          exact Memory.change_of_acts hn hacts
        refine ⟨k + 1, atHand_eq_nil_iff.mpr ⟨_, hwriter⟩, ?_⟩
        show ((s.work now).run (List.replicate k (.work now))).channel = _
        rw [channel_of_idle hwriter, hqueue', hrun, hbegin, hjs]
        simp [Function.comp_def]

end Traffic

end Notebook
