import Notebook.Proofs.Disk
import Notebook.Store.Basic

/-!
# Stores on a path

A store may be given a text for a path that no system can have as one.  Then nothing is written, and
whoever adds or deletes a note gets an error back, also in the middle of a change.  On any other
path the writer comes to the end of what it does, whatever the disk is like.
-/

namespace Notebook.Memory

/-- The system refuses to write the notes just to paths that it can have. -/
theorem isSystems_of_save {m : Memory} {path : Text} {e : FileError}
    (h : m.save path = .error e) : e.reason.isSystems = Disk.isPath path := by
  unfold save Disk.write at h
  split at h
  · cases h
  · next reason hreason =>
    cases h
    exact Disk.isSystems_of_writable hreason

/-- The store has no file, or one with a path that the system can have. -/
def OnPath (m : Memory) : Prop := ∀ path, m.path = some path → Disk.isPath path = true

theorem OnPath.failure? {m : Memory} (h : m.OnPath) : m.failure? = none := by
  unfold Memory.failure?
  cases hpath : m.path with
  | none => rfl
  | some path =>
    cases hsave : m.save path with
    | ok disk => simp [hsave]
    | error e => simp [hsave, isSystems_of_save hsave, h path hpath]

theorem OnPath.deleteFailure? {m : Memory} (h : m.OnPath) (id : Text) :
    m.deleteFailure? id = none := by
  unfold Memory.deleteFailure?
  split
  · exact OnPath.failure? (m := m.without id) h
  · rfl

theorem OnPath.failureOf? {m : Memory} (h : m.OnPath) (j : Job) : failureOf? j m = none := by
  cases j with
  | add n => exact OnPath.failure? (m := m.withNote n) h
  | delete id => exact h.deleteFailure? id
  | change id actions => rfl

/-! ### The path stays -/

theorem path_persist (m : Memory) : m.persist.path = m.path := by
  unfold persist
  split
  · rfl
  · simp only
    split <;> rfl

theorem path_add (n : Note) (m : Memory) : (m.add n).path = m.path := path_persist _

theorem path_delete (id : Text) (m : Memory) : (m.delete id).path = m.path := by
  unfold delete
  split
  · exact path_persist _
  · rfl

namespace Change

theorem path_put (n : Note) (c : Change) : (c.put n).memory.path = c.memory.path := by
  unfold put
  simp only
  split <;> rfl

theorem path_act (now : Moment) (c : Change) (a : Action) :
    (c.act now a).1.memory.path = c.memory.path := by
  cases a with
  | set =>
    simp only [act]
    split
    · exact path_put _ _
    · rfl
  | add =>
    simp only [act]
    split
    · exact path_add _ _
    · rfl
  | delete id => exact path_delete id c.memory
  | suggest =>
    simp only [act]
    split
    · rw [path_put, path_put]
    · exact path_put _ _
  | appendTag | embed => exact path_put _ _
  | fail | submit => rfl

theorem path_acts (now : Moment) (c : Change) (as : List Action) :
    (c.acts now as).1.memory.path = c.memory.path := by
  induction as generalizing c with
  | nil => rfl
  | cons a as ih =>
    have hact := path_act now c a
    simp only [acts]
    split
    · next d hd =>
      rw [hd] at hact
      exact (ih d).trans hact
    · next d hd =>
      rw [hd] at hact
      exact hact

end Change

theorem path_run (now : Moment) (j : Job) (m : Memory) : (run now j m).1.path = m.path := by
  cases j with
  | add n => exact path_add n m
  | delete id => exact path_delete id m
  | change id actions =>
    simp only [run, change]
    split
    · rfl
    · next n _ =>
      have hacts := Change.path_acts now ⟨id, n, true, m, []⟩ actions
      split
      · next c hc =>
        rw [hc] at hacts
        exact (path_persist _).trans ((Change.path_put _ c).trans hacts)
      · next c hc =>
        rw [hc] at hacts
        exact hacts

end Notebook.Memory
