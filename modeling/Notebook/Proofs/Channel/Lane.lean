import Mathlib.Logic.Function.Basic
import Notebook.Store.Channel

/-!
# Channels with many callers

A lane is the mutation channel of a note store, which `Channel` has call by call, taken apart into
the steps of its threads: the threads that write for it, and its callers, who submit jobs, start and
stop it and flush it while a thread is at work.  A step is something that nobody can come between:
it looks at the thread, at the queue or at the stop mark of the channel, or it changes one of them.
Any number of callers may be in the middle of their calls.

What was submitted and what was done is taken down for later; no step depends on it.
-/

namespace Notebook

/-- What stands in the queue of a channel. -/
inductive Entry (J : Type)
  | job (j : J)
  /-- The mark of a flush: it lets the one go on who waits for it.  A bell is known by its place
  among all entries. -/
  | bell (place : Nat)
  deriving DecidableEq

namespace Entry

variable {J : Type}

def job? : Entry J → Option J
  | .job j => some j
  | .bell _ => none

/-- The jobs among entries. -/
def jobs (es : List (Entry J)) : List J := es.filterMap job?

end Entry

/-- What a thread that writes for a channel is at. -/
inductive Writing (J : Type)
  /-- It was not started yet. -/
  | fresh
  /-- It is about to look at the stop mark. -/
  | looking
  /-- It is about to take the next entry. -/
  | taking
  | holding (e : Entry J)
  /-- It is about to count down the entry that it is done with. -/
  | counting
  | ended
  deriving DecidableEq

namespace Writing

variable {J : Type}

def isAlive : Writing J → Bool
  | .fresh | .ended => false
  | _ => true

/-- What was taken from the queue and is not done. -/
def held : Writing J → List (Entry J)
  | .holding e => [e]
  | _ => []

/-- How many entries were taken from the queue and not counted down. -/
def owing : Writing J → Nat
  | .holding _ | .counting => 1
  | _ => 0

theorem held_of_not_alive {w : Writing J} (h : w.isAlive = false) : w.held = [] := by
  cases w <;> simp_all [isAlive, held]

theorem held_of_owing_eq_zero {w : Writing J} (h : w.owing = 0) : w.held = [] := by
  cases w <;> simp_all [owing, held]

theorem owing_of_not_alive {w : Writing J} (h : w.isAlive = false) : w.owing = 0 := by
  cases w <;> simp_all [isAlive, owing]

end Writing

/-- What somebody waits for a channel for: that alone, or to stop it after. -/
inductive Errand
  | flush
  | stop
  deriving DecidableEq

/-- Where a caller is.  In `before` it keeps how many entries were submitted when it called. -/
inductive Caller
  | free
  /-- Back from a flush. -/
  | flushed (before : Nat) (answer : Bool)
  /-- Back with an error. -/
  | failed
  /-- It is about to see whether the channel runs, to start it if it does not. -/
  | starting
  | unmarking
  | creating
  | launching
  /-- It is about to see whether the channel has a thread, to stop that. -/
  | stopping (before : Nat)
  /-- It is about to see whether the channel runs, to wait for it. -/
  | asking (why : Errand) (before : Nat)
  | putting (why : Errand) (before : Nat)
  /-- It waits for the bell at `place`. -/
  | waiting (why : Errand) (before place : Nat)
  /-- The channel does not run; it is about to see whether anything is left. -/
  | weighing (why : Errand) (before : Nat)
  | marking
  | joining
  /-- It waits for the end of a thread. -/
  | awaiting (thread : Nat)
  | checking
  | dropping
  deriving DecidableEq

namespace Caller

/-- May the caller call again? -/
def isFree : Caller → Bool
  | .free | .flushed .. | .failed => true
  | _ => false

/-- Is the caller in the middle of starting or stopping the channel? -/
def isSteering : Caller → Bool
  | .free | .flushed .. | .failed => false
  | .asking .flush _ | .putting .flush _ | .waiting .flush .. | .weighing .flush _ => false
  | _ => true

/-- Where one is who has waited. -/
def back (before : Nat) (answer : Bool) : Errand → Caller
  | .flush => .flushed before answer
  | .stop => .marking

end Caller

inductive Call (J : Type)
  | submit (j : J)
  | start
  | stop
  | flush

/-- The book of a channel. -/
structure Book (σ J : Type) where
  state : σ
  queue : List (Entry J)
  /-- How many entries were put into the queue and not counted down. -/
  unfinished : Nat
  /-- The places of the bells that have rung. -/
  rung : List Nat
  /-- All that was ever put into the queue, in order. -/
  submitted : List (Entry J)
  /-- All that is done, in order. -/
  executed : List (Entry J)
  /-- The jobs that have failed. -/
  failures : List J

namespace Book

variable {σ J : Type}

def enqueue (es : List (Entry J)) (b : Book σ J) : Book σ J :=
  { b with
    queue := b.queue ++ es
    unfinished := b.unfinished + es.length
    submitted := b.submitted ++ es }

/-- An entry is done.  Of a job that fails this is taken down; what it has done so far is in `w`. -/
def execute (w : Worker σ J) (fails : J → σ → Bool) (b : Book σ J) : Entry J → Book σ J
  | .job j =>
    enqueue ((w.run j b.state).2.map .job)
      { b with
        state := (w.run j b.state).1
        executed := b.executed ++ [.job j]
        failures := if fails j b.state then b.failures ++ [j] else b.failures }
  | .bell k => { b with rung := b.rung ++ [k], executed := b.executed ++ [.bell k] }

def countDown (b : Book σ J) : Book σ J := { b with unfinished := b.unfinished - 1 }

theorem enqueue_nil (b : Book σ J) : b.enqueue [] = b := by simp [enqueue]

end Book

structure Lane (σ J : Type) extends Book σ J where
  /-- The thread that the channel takes for its own. -/
  own : Option Nat
  stopMark : Bool
  threads : Nat → Writing J
  /-- How many threads there have been. -/
  born : Nat
  caller : Nat → Caller

namespace Lane

variable {σ J : Type}

inductive Event (J : Type)
  | call (name : Nat) (c : Call J)
  /-- A caller in the middle of a call takes its next step. -/
  | goOn (name : Nat)
  /-- A thread takes its next step. -/
  | work (thread : Nat)

def new (s : σ) : Lane σ J :=
  ⟨⟨s, [], 0, [], [], [], []⟩, none, false, fun _ => .fresh, 0, fun _ => .free⟩

/-- The channel takes itself for running. -/
def isRunning (s : Lane σ J) : Bool := s.own.any fun t => (s.threads t).isAlive

theorem isRunning_iff {s : Lane σ J} :
    s.isRunning = true ↔ ∃ t, s.own = some t ∧ (s.threads t).isAlive = true := by
  unfold isRunning
  cases s.own <;> simp

/-! ### Steps of callers -/

def place (name : Nat) (c : Caller) (s : Lane σ J) : Lane σ J :=
  { s with caller := Function.update s.caller name c }

def turn (t : Nat) (w : Writing J) (s : Lane σ J) : Lane σ J :=
  { s with threads := Function.update s.threads t w }

def enqueue (es : List (Entry J)) (s : Lane σ J) : Lane σ J :=
  { s with toBook := s.toBook.enqueue es }

/-- A caller begins with a call.  To submit a job takes one step. -/
def begin (name : Nat) (s : Lane σ J) : Call J → Lane σ J
  | .submit j => (s.enqueue [.job j]).place name .free
  | .start => s.place name .starting
  | .stop => s.place name (.stopping s.submitted.length)
  | .flush => s.place name (.asking .flush s.submitted.length)

/-- The thread that is the channel's own by now is started; no thread is started twice. -/
def launch (name : Nat) (s : Lane σ J) : Lane σ J :=
  match s.own with
  | none => s.place name .failed
  | some t =>
    match s.threads t with
    | .fresh => (s.turn t .looking).place name .free
    | _ => s.place name .failed

/-- One cannot wait for the end of a thread that was not started. -/
def join (name : Nat) (s : Lane σ J) : Lane σ J :=
  match s.own with
  | none => s.place name .failed
  | some t =>
    match s.threads t with
    | .fresh => s.place name .failed
    | _ => s.place name (.awaiting t)

theorem book_launch (name : Nat) (s : Lane σ J) : (s.launch name).toBook = s.toBook := by
  unfold launch
  split
  · rfl
  · split <;> rfl

theorem book_join (name : Nat) (s : Lane σ J) : (s.join name).toBook = s.toBook := by
  unfold join
  split
  · rfl
  · split <;> rfl

def goOn (name : Nat) (s : Lane σ J) : Lane σ J :=
  match s.caller name with
  | .free | .flushed .. | .failed => s
  | .starting => s.place name (if s.isRunning then .free else .unmarking)
  | .unmarking => { s with stopMark := false }.place name .creating
  | .creating => { s with own := some s.born, born := s.born + 1 }.place name .launching
  | .launching => s.launch name
  | .stopping before =>
    s.place name (if s.own.isSome then .asking .stop before else .free)
  | .asking why before =>
    s.place name (if s.isRunning then .putting why before else .weighing why before)
  | .putting why before =>
    (s.enqueue [.bell s.submitted.length]).place name (.waiting why before s.submitted.length)
  | .waiting why before place => if place ∈ s.rung then s.place name (.back before true why) else s
  | .weighing why before => s.place name (.back before (s.unfinished = 0) why)
  | .marking => { s with stopMark := true }.place name .joining
  | .joining => s.join name
  | .awaiting t =>
    match s.threads t with
    | .ended => s.place name .checking
    | _ => s
  | .checking => s.place name (if s.own.isSome then .dropping else .failed)
  | .dropping => { s with own := none }.place name .free

/-- Callers do nothing to the book but put entries into the queue. -/
theorem exists_book_begin (name : Nat) (s : Lane σ J) (c : Call J) :
    ∃ es, (s.begin name c).toBook = s.toBook.enqueue es := by
  cases c with
  | submit j => exact ⟨[.job j], rfl⟩
  | start | stop | flush => exact ⟨[], (Book.enqueue_nil _).symm⟩

theorem exists_book_goOn (name : Nat) (s : Lane σ J) :
    ∃ es, (s.goOn name).toBook = s.toBook.enqueue es := by
  have hsame : ∀ s' : Lane σ J, s'.toBook = s.toBook → ∃ es, s'.toBook = s.toBook.enqueue es :=
    fun s' hs' => ⟨[], hs'.trans (Book.enqueue_nil _).symm⟩
  unfold goOn
  cases s.caller name with
  | putting why before => exact ⟨[.bell s.submitted.length], rfl⟩
  | launching => exact hsame _ (book_launch name s)
  | joining => exact hsame _ (book_join name s)
  | waiting | awaiting =>
    simp only
    split <;> exact hsame _ rfl
  | _ => exact hsame _ rfl

/-! ### Steps of threads -/

section

variable (w : Worker σ J) (fails : J → σ → Bool)

def work (t : Nat) (s : Lane σ J) : Lane σ J :=
  match s.threads t with
  | .fresh | .ended => s
  | .looking => s.turn t (if s.stopMark then .ended else .taking)
  | .taking =>
    match s.queue with
    | [] => s.turn t .looking
    | e :: r => { s with queue := r }.turn t (.holding e)
  | .holding e => { s with toBook := s.toBook.execute w fails e }.turn t .counting
  | .counting => { s with toBook := s.toBook.countDown }.turn t .looking

/-- One who is in the middle of a call does not begin with another. -/
def step (s : Lane σ J) : Event J → Lane σ J
  | .call name c => if (s.caller name).isFree then s.begin name c else s
  | .goOn name => s.goOn name
  | .work t => s.work w fails t

def run (s : Lane σ J) (es : List (Event J)) : Lane σ J := es.foldl (step w fails) s

end

variable {w : Worker σ J} {fails : J → σ → Bool}

theorem run_concat (s : Lane σ J) (es : List (Event J)) (e : Event J) :
    s.run w fails (es ++ [e]) = (s.run w fails es).step w fails e := by simp [run]

theorem run_append (s : Lane σ J) (es es' : List (Event J)) :
    s.run w fails (es ++ es') = (s.run w fails es).run w fails es' := by simp [run]

/-- No two threads are alive. -/
def OneWriter (s : Lane σ J) : Prop :=
  ∀ t u, (s.threads t).isAlive = true → (s.threads u).isAlive = true → t = u

/-- No thread is alive. -/
def Stopped (s : Lane σ J) : Prop := ∀ t, (s.threads t).isAlive = false

end Lane

end Notebook
