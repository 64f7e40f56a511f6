/-!
# Write channels

A channel keeps jobs in the order in which they were submitted.  Its one writer, while it runs,
takes them one at a time and lets each change the state; a job may submit further jobs.  Whoever
stops the writer waits for it, but not for ever.
-/

namespace Notebook

-- A sum begins with the zero of the core library here, whatever is imported besides.
attribute [local instance (high)] Zero.ofOfNat0

/-- How jobs are done.  A job is larger than all the jobs together that it submits. -/
structure Worker (σ J : Type) where
  run : J → σ → σ × List J
  size : J → Nat
  smaller : ∀ j s, ((run j s).2.map size).sum < size j

structure Channel (σ J : Type) where
  state : σ
  queue : List J
  running : Bool
  /-- The jobs at which writers were given up. -/
  late : List J

namespace Channel

variable {σ J : Type}

def new (s : σ) : Channel σ J := ⟨s, [], false, []⟩

def submit (j : J) (c : Channel σ J) : Channel σ J := { c with queue := c.queue ++ [j] }

def start (c : Channel σ J) : Channel σ J := { c with running := true }

section

variable (w : Worker σ J)

/-- The writer does the next job, if it runs and there is one. -/
def step (c : Channel σ J) : Channel σ J :=
  if c.running then
    match c.queue with
    | [] => c
    | j :: r =>
      let (s, more) := w.run j c.state
      { c with state := s, queue := r ++ more }
  else c

def steps : Nat → Channel σ J → Channel σ J
  | 0, c => c
  | n + 1, c => steps n (c.step w)

/-- Wait for the jobs submitted so far.  While the writer stands still this only tells whether
there are none. -/
def flush (c : Channel σ J) : Bool × Channel σ J :=
  if c.running then (true, c.steps w c.queue.length) else (c.queue.isEmpty, c)

/-- Stop the writer, which gets to its queue `visits` times before it sees that: as often as there
are jobs in it and more, unless they take too long.  Who has waited too long for its end gives up a
writer at its job. -/
def stop (visits : Nat) (ends : Bool) (c : Channel σ J) : Channel σ J :=
  if c.running then
    let c := c.steps w visits
    if ends then { c with running := false }
    else { c with queue := c.queue.tail, running := false, late := c.late ++ c.queue.head?.toList }
  else c

/-- Stop a writer that comes to the end of the jobs submitted so far, and to its own, in time. -/
def stopInTime (c : Channel σ J) : Channel σ J := c.stop w c.queue.length true

/-- One of the writers that were given up comes to the end of its job. -/
def overrun (i : Nat) (c : Channel σ J) : Channel σ J :=
  match c.late[i]? with
  | none => c
  | some j =>
    let (s, more) := w.run j c.state
    { c with state := s, queue := c.queue ++ more, late := c.late.eraseIdx i }

/-- The state when all jobs are done, also those that they submit. -/
def drain (s : σ) : List J → σ
  | [] => s
  | j :: r => drain (w.run j s).1 (r ++ (w.run j s).2)
termination_by q => (q.map w.size).sum
decreasing_by
  have := w.smaller j s
  simp only [List.map_append, List.sum_append, List.map_cons, List.sum_cons]
  omega

/-- Wait until there is no job left. -/
def settle (c : Channel σ J) : Bool × Channel σ J :=
  if c.running then (true, { c with state := drain w c.state c.queue, queue := [] })
  else (c.queue.isEmpty, c)

end

@[simp] theorem state_submit (j : J) (c : Channel σ J) : (c.submit j).state = c.state := rfl

@[simp] theorem queue_submit (j : J) (c : Channel σ J) : (c.submit j).queue = c.queue ++ [j] := rfl

@[simp] theorem running_submit (j : J) (c : Channel σ J) :
    (c.submit j).running = c.running := rfl

@[simp] theorem drain_nil (w : Worker σ J) (s : σ) : drain w s [] = s := by simp [drain]

theorem stopInTime_of_running (w : Worker σ J) {c : Channel σ J} (h : c.running = true) :
    c.stopInTime w = { c.steps w c.queue.length with running := false } := by
  simp [stopInTime, stop, h]

theorem step_cons (w : Worker σ J) {c : Channel σ J} {j : J} {r : List J}
    (hr : c.running = true) (hq : c.queue = j :: r) :
    c.step w = { c with state := (w.run j c.state).1, queue := r ++ (w.run j c.state).2 } := by
  simp [step, hr, hq]

end Channel

end Notebook
