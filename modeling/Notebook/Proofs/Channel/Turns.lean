import Notebook.Store.Channel

/-!
# Whose turn it is

A writer that gets to its queue a number of times does the jobs in front of it.  None is passed
over and none comes back: what stood in the queue or was submitted meanwhile is done or stands there
still.
-/

namespace Notebook.Channel

variable {σ J : Type} (w : Worker σ J)

/-- The job whose turn it is. -/
def next? (c : Channel σ J) : Option J := if c.running then c.queue.head? else none

/-- The jobs that are done when the writer gets to its queue `n` times. -/
def turns : Nat → Channel σ J → List J
  | 0, _ => []
  | n + 1, c => c.next?.toList ++ turns n (c.step w)

/-- The jobs that these submit. -/
def spawned : Nat → Channel σ J → List J
  | 0, _ => []
  | n + 1, c => (c.next?.map fun j => (w.run j c.state).2).getD [] ++ spawned n (c.step w)

variable {w}

theorem step_of_next?_eq_none {c : Channel σ J} (h : c.next? = none) : c.step w = c := by
  unfold next? at h
  unfold step
  split
  · next hrunning =>
    rw [if_pos hrunning, List.head?_eq_none_iff] at h
    rw [h]
  · rfl

theorem step_of_next?_eq_some {c : Channel σ J} {j : J} (h : c.next? = some j) :
    ∃ r, c.queue = j :: r ∧
      c.step w = { c with state := (w.run j c.state).1, queue := r ++ (w.run j c.state).2 } := by
  unfold next? at h
  split at h
  · next hrunning =>
    obtain ⟨r, hqueue⟩ := List.head?_eq_some_iff.mp h
    exact ⟨r, hqueue, step_cons w hrunning hqueue⟩
  · cases h

theorem running_step (c : Channel σ J) : (c.step w).running = c.running := by
  cases h : c.next? with
  | none => rw [step_of_next?_eq_none h]
  | some j =>
    obtain ⟨r, -, hstep⟩ := step_of_next?_eq_some (w := w) h
    rw [hstep]

theorem running_steps (n : Nat) (c : Channel σ J) : (c.steps w n).running = c.running := by
  induction n generalizing c with
  | zero => rfl
  | succ n ih => exact (ih _).trans (running_step c)

/-- A writer that runs goes on running. -/
theorem steps_with_running (n : Nat) {c : Channel σ J} (h : c.running = true) :
    { c.steps w n with running := true } = c.steps w n := by
  rw [← h, ← running_steps (w := w) n c]

theorem steps_of_stopped {c : Channel σ J} (h : c.running = false) (n : Nat) : c.steps w n = c := by
  have hnext : c.next? = none := by simp [next?, h]
  induction n with
  | zero => rfl
  | succ n ih =>
    rw [steps, step_of_next?_eq_none hnext]
    exact ih

theorem late_steps (n : Nat) (c : Channel σ J) : (c.steps w n).late = c.late := by
  induction n generalizing c with
  | zero => rfl
  | succ n ih =>
    rw [steps, ih]
    cases h : c.next? with
    | none => rw [step_of_next?_eq_none h]
    | some j =>
      obtain ⟨r, -, hstep⟩ := step_of_next?_eq_some (w := w) h
      rw [hstep]

theorem stop_of_running {c : Channel σ J} (h : c.running = true) (visits : Nat) :
    c.stop w visits true = { c.steps w visits with running := false } := by simp [stop, h]

theorem stop_of_stopped {c : Channel σ J} (h : c.running = false) (visits : Nat) (ends : Bool) :
    c.stop w visits ends = c := by simp [stop, h]

theorem overrun_of_nil {c : Channel σ J} (h : c.late = []) (i : Nat) : c.overrun w i = c := by
  simp [overrun, h]

end Notebook.Channel
