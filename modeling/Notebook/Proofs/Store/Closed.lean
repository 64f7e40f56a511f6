import Notebook.Moment
import Notebook.Proofs.Channel.Turns
import Notebook.Note.Record
import Notebook.Proofs.Store.OnPath

/-!
# Closed stores

A store that closes its channel does what was queued before, and from then on nothing: changes can
still be queued, but no writer takes them up, and whoever waits for one is told so.  A writer that
takes too long leaves jobs undone, and may come to the end of one when the store is closed.  A store
that shares its channel does not notice that it is closed.
-/

namespace Notebook

namespace Memory

end Memory

namespace Store

/-- What one does with a store, or its writer. -/
inductive Use
  | add (n : Note)
  | delete (id : Text)
  /-- A change of a note, and a wait for it. -/
  | mutate (id : Text) (actions : List Action)
  /-- A change that nobody waits for. -/
  | change (id : Text) (actions : List Action)
  | flush
  /-- The writer gets to its queue. -/
  | work
  /-- The writer gets to its queue `visits` times before it sees that it is to stop; unless it
  `ends` in time, it is given up at a job. -/
  | close (visits : Nat) (ends : Bool)
  /-- A writer that was given up comes to the end of its job. -/
  | overrun (i : Nat)
  | advance (seconds : Float)

inductive Answer
  | done
  /-- Done, but for the writing to a file whose path is none. -/
  | failed (message : Text)
  | refused (message : Text)
  | flushed (all : Bool)
  deriving DecidableEq

def Answer.ofFailure : Option FileError → Answer
  | none => .done
  | some e => .failed e.message

/-- Wait for the jobs submitted so far. -/
def flush (now : Moment) (s : Store) : Bool × Store :=
  ((s.channel.flush (Memory.worker now)).1,
    { s with channel := (s.channel.flush (Memory.worker now)).2 })

def use (now : Moment) (s : Store) : Use → Answer × Store
  | .add n =>
    ((s.add? now n).map (Answer.ofFailure (s.failure? now (.add n)), ·)).getD
      (.refused closedMessage, s)
  | .delete id =>
    ((s.delete? now id).map (Answer.ofFailure (s.failure? now (.delete id)), ·)).getD
      (.refused closedMessage, s)
  | .mutate id actions =>
    (.flushed ((s.change id actions).flush now).1, ((s.change id actions).flush now).2)
  | .change id actions => (.done, s.change id actions)
  | .flush => (.flushed (s.flush now).1, (s.flush now).2)
  | .work => (.done, { s with channel := s.channel.step (Memory.worker now) })
  | .close visits ends => (.done, s.close now visits ends)
  | .overrun i => (.done, { s with channel := s.channel.overrun (Memory.worker now) i })
  | .advance _ => (.done, s)

/-! ### Jobs and turns -/

namespace Use

/-- The jobs that a store takes for a use of it. -/
def jobs (isOpen : Bool) : Use → List Job
  | .add n => if isOpen then [.add n] else []
  | .delete id => if isOpen then [.delete id] else []
  | .mutate id actions | .change id actions => [.change id actions]
  | _ => []

/-- How many times the writer of a store gets to its queue, in which there are `n` jobs. -/
def visits (shared : Bool) (n : Nat) : Use → Nat
  | .add _ | .delete _ | .mutate .. | .flush => n
  | .work => 1
  | .close visits _ => if shared then 0 else visits
  | .change .. | .overrun _ | .advance _ => 0

def closes : Use → Bool
  | .close .. => true
  | _ => false

/-- Is no writer given up? -/
def endsInTime : Use → Bool
  | .close _ ends => ends
  | _ => true

def pass (clock : Clock) : Use → Clock
  | .advance seconds => clock.advance seconds
  | _ => clock

end Use

/-- The channel as the writer finds it: with the jobs of the use in its queue. -/
def begun (s : Store) (u : Use) : Channel Memory Job :=
  { s.channel with queue := s.channel.queue ++ u.jobs s.isOpen }

/-- As long as no writer is given up, all that happens to the channel is that jobs are queued, that
the writer gets to its queue, and that it is stopped. -/
theorem use_eq {s : Store} (hlate : s.channel.late = []) (now : Moment) {u : Use}
    (hu : s.shared = true ∨ u.endsInTime = true) :
    (s.use now u).2 =
      { s with channel :=
        { (s.begun u).steps (Memory.worker now) (u.visits s.shared (s.begun u).queue.length) with
          running := s.isOpen && (s.shared || !u.closes) } } := by
  have hzero : ∀ c : Channel Memory Job, c.steps (Memory.worker now) 0 = c := fun _ => rfl
  obtain ⟨⟨m, queue, running, late⟩, shared⟩ := s
  obtain rfl : late = [] := hlate
  cases running with
  | true =>
    cases u with
    | close visits ends =>
      cases shared with
      | true =>
        simp [use, close, begun, isOpen, Use.jobs, Use.visits, hzero]
      | false =>
        obtain rfl : ends = true := by simpa [Use.endsInTime] using hu
        simp [use, close, begun, isOpen, Use.jobs, Use.visits, Use.closes,
          Channel.stop_of_running]
    | work =>
      simp only [use, begun, isOpen, Use.jobs, Use.visits, Use.closes, List.append_nil,
        Bool.not_false, Bool.or_true, Bool.and_true]
      rw [Channel.steps_with_running 1 rfl]
      rfl
    | overrun i =>
      simp [use, begun, isOpen, Use.jobs, Use.visits, Use.closes, Channel.overrun_of_nil, hzero]
    | _ =>
      simp [use, add?, delete?, write?, change, submit, flush, Channel.flush, Channel.submit, begun,
        isOpen, Use.jobs, Use.visits, Use.closes, Channel.steps_with_running, hzero]
  | false =>
    cases u <;>
      simp [use, add?, delete?, write?, change, submit, flush, close, Channel.flush,
        Channel.submit, Channel.step, Channel.stop_of_stopped, Channel.overrun_of_nil, begun,
        isOpen, Use.jobs, Use.closes, Channel.steps_of_stopped]

/-- No use but a close that takes too long gives a writer up. -/
theorem late_use {s : Store} (hlate : s.channel.late = []) (now : Moment) {u : Use}
    (hu : s.shared = true ∨ u.endsInTime = true) : (s.use now u).2.channel.late = [] := by
  rw [use_eq hlate now hu]
  exact (Channel.late_steps _ _).trans hlate

theorem shared_use (now : Moment) (s : Store) (u : Use) : (s.use now u).2.shared = s.shared := by
  cases u with
  | add | delete =>
    simp only [use, add?, delete?, write?]
    split <;> rfl
  | close visits ends =>
    simp only [use, close]
    split <;> rfl
  | _ => rfl

/-- A store in the course of time. -/
structure Course where
  store : Store
  clock : Clock

namespace Course

/-- What is done now. -/
def use (c : Course) (u : Use) : Answer × Course :=
  ((c.store.use c.clock.wall u).1, ⟨(c.store.use c.clock.wall u).2, u.pass c.clock⟩)

def run (c : Course) (us : List Use) : Course := us.foldl (fun c u => (c.use u).2) c

/-- How many times the writer gets to its queue. -/
def visits (c : Course) (u : Use) : Nat :=
  u.visits c.store.shared (c.store.begun u).queue.length

/-- All jobs that are queued during a run, in order. -/
def asked (c : Course) : List Use → List Job
  | [] => []
  | u :: us =>
    u.jobs c.store.isOpen ++
      Channel.spawned (Memory.worker c.clock.wall) (c.visits u) (c.store.begun u) ++
      asked (c.use u).2 us

/-- All jobs that have their turn during a run, in order, each with its moment. -/
def turns (c : Course) : List Use → List (Moment × Job)
  | [] => []
  | u :: us =>
    (Channel.turns (Memory.worker c.clock.wall) (c.visits u) (c.store.begun u)).map
        (c.clock.wall, ·) ++
      turns (c.use u).2 us

variable {c : Course}

theorem run_append (c : Course) (us us' : List Use) : c.run (us ++ us') = (c.run us).run us' := by
  simp [run]

/-- No writer has been given up at a job that is not done yet. -/
def Punctual (c : Course) : Prop := c.store.channel.late = []

theorem Punctual.use (h : c.Punctual) {u : Use}
    (hu : c.store.shared = true ∨ u.endsInTime = true) : (c.use u).2.Punctual :=
  late_use h c.clock.wall hu

/-- A writer is given up only by a close that takes too long. -/
def InTime (c : Course) (us : List Use) : Prop :=
  c.store.shared = true ∨ ∀ u ∈ us, u.endsInTime = true

theorem InTime.first {u : Use} {us : List Use} (h : c.InTime (u :: us)) :
    c.store.shared = true ∨ u.endsInTime = true := h.imp_right fun hus => hus u List.mem_cons_self

theorem InTime.rest {u : Use} {us : List Use} (h : c.InTime (u :: us)) : (c.use u).2.InTime us :=
  h.imp (shared_use _ _ u).trans fun hus u' hu' => hus u' (List.mem_cons_of_mem _ hu')

theorem Punctual.run (h : c.Punctual) {us : List Use} (hus : c.InTime us) :
    (c.run us).Punctual := by
  induction us generalizing c with
  | nil => exact h
  | cons u us ih => exact ih (h.use hus.first) hus.rest

end Course

end Store

end Notebook
