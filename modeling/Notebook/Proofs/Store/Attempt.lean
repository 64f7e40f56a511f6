import Notebook.Proofs.Store.Sync
import Notebook.Proofs.Store.Traffic

/-!
# Attempts to write

In each of its steps the writer of a store tries to write the notes or leaves the disk alone.  This
module says which of the two it is, and that it is all that a step does to the memory apart from
the notes.
-/

namespace Notebook

namespace Memory

/-- What a writing comes to. -/
def outcome (path : Text) (m : Memory) : SyncStatus :=
  match m.save path with
  | .ok _ => .success
  | .error e => .ofError e

/-- The disk after a writing; one that fails leaves it as it is. -/
def diskAfter (path : Text) (m : Memory) : Disk :=
  match m.save path with
  | .ok disk => disk
  | .error _ => m.disk

theorem persist_of_path {m : Memory} {path : Text} (h : m.path = some path) :
    m.persist = { m with disk := m.diskAfter path, sync := m.outcome path } := by
  obtain ⟨notes, disk, own, sync⟩ := m
  obtain rfl : own = some path := h
  -- What is saved does not depend on the status.
  have hsave : (Memory.mk notes disk (some path) .syncing).save path =
      (Memory.mk notes disk (some path) sync).save path := rfl
  simp only [persist, diskAfter, outcome, hsave]
  cases (Memory.mk notes disk (some path) sync).save path <;> rfl

/-- Memory goes over into `m'`.  Either nothing but the notes changes and nothing is written, or
there is an attempt to write what has become of the notes. -/
inductive Goes (m : Memory) : Option Memory → Memory → Prop
  | quiet (notes : Keyed Note) : Goes m none { m with notes := notes }
  | tried (notes : Keyed Note) :
    Goes m (some { m with notes := notes }) { m with notes := notes }.persist

theorem Goes.refl (m : Memory) : m.Goes none m := .quiet m.notes

theorem Goes.of_attempt {m m' x : Memory} (h : m.Goes (some x) m') :
    m' = x.persist ∧ x.path = m.path := by
  cases h with
  | tried notes => exact ⟨rfl, rfl⟩

theorem Goes.path {m m' : Memory} {attempt : Option Memory} (h : m.Goes attempt m') :
    m'.path = m.path := by
  cases h with
  | quiet notes => rfl
  | tried notes => exact path_persist _

/-- The store has a file, and that can be written. -/
structure CanWrite (path : Text) (m : Memory) : Prop where
  own : m.path = some path
  place : ∃ ps, m.disk.writable path = .ok ps

theorem CanWrite.save {m : Memory} {path : Text} (h : m.CanWrite path) :
    ∃ disk, m.save path = .ok disk ∧ ∃ ps, disk.writable path = .ok ps := by
  obtain ⟨ps, hps⟩ := h.place
  have hsave : m.save path = .ok (m.disk.set ps (.file (.ofString (fileText m.notes.values)))) := by
    rw [Memory.save, Disk.write, hps]
  exact ⟨_, hsave, ps, Disk.writable_set hps⟩

theorem CanWrite.onPath {m : Memory} {path : Text} (h : m.CanWrite path) : m.OnPath := by
  obtain ⟨ps, hps⟩ := h.place
  obtain ⟨here, n, hlocate, -⟩ := Disk.writable_eq_ok hps
  intro path' hpath'
  obtain rfl : path = path' := Option.some.inj (h.own.symm.trans hpath')
  exact (Disk.locate_eq_ok_iff.mp hlocate).1

/-- Where a file can be written once it can be written again. -/
theorem Goes.canWrite {m m' : Memory} {attempt : Option Memory} (h : m.Goes attempt m')
    {path : Text} (hcan : m.CanWrite path) :
    m'.CanWrite path ∧ ∀ x ∈ attempt.toList, ∃ disk, x.save path = .ok disk := by
  cases h with
  | quiet notes => exact ⟨⟨hcan.own, hcan.place⟩, by simp⟩
  | tried notes =>
    have hcan' : ({ m with notes := notes } : Memory).CanWrite path := ⟨hcan.own, hcan.place⟩
    obtain ⟨disk, hdisk, hplace⟩ := hcan'.save
    refine ⟨?_, by simpa using ⟨disk, hdisk⟩⟩
    rw [persist_of_path hcan'.own]
    refine ⟨hcan.own, ?_⟩
    simpa only [diskAfter, hdisk] using hplace

end Memory

/-- What is tried to be written as the writer begins with a job. -/
def Job.attempt? (m : Memory) : Job → Option Memory
  | .add n => some { m with notes := Keyed.insert n.id n m.notes }
  | .delete id =>
    if (m.notes.get? id).isSome then some { m with notes := Keyed.erase id m.notes } else none
  | .change .. => none

/-- What is tried to be written with an action of a change. -/
def Action.attempt? (now : Moment) (m : Memory) : Action → Option Memory
  | .add record =>
    match Note.ofJson now record with
    | .ok n => (Job.add n).attempt? m
    | _ => none
  | .delete id => (Job.delete id).attempt? m
  | _ => none

namespace Memory

theorem goes_delete (id : Text) (m : Memory) :
    m.Goes ((Job.delete id).attempt? m) (m.delete id) := by
  by_cases h : (m.notes.get? id).isSome = true
  · rw [delete, if_pos h, Job.attempt?, if_pos h]
    exact .tried _
  · rw [delete, if_neg h, Job.attempt?, if_neg h]
    exact .refl m

theorem goes_act (now : Moment) (c : Change) (a : Action) :
    c.memory.Goes (a.attempt? now c.memory) (c.act now a).1.memory := by
  have hput (n : Note) : c.memory.Goes none (c.put n).memory := by
    rw [Change.memory_put]
    exact .quiet _
  cases a with
  | set field value =>
    simp only [Change.act]
    split
    · exact hput _
    · exact .refl _
  | add record =>
    simp only [Change.act, Action.attempt?]
    cases Note.ofJson now record with
    | ok n => exact .tried _
    | faulty fs => exact .refl _
    | broken b => exact .refl _
  | delete id => exact goes_delete id c.memory
  | suggest tags confidences time =>
    simp only [Change.act]
    split
    · rw [Change.memory_put, Change.memory_put]
      exact .quiet _
    · exact hput _
  | appendTag tag => exact hput _
  | embed g => exact hput _
  | fail => exact .refl _
  | submit id actions => exact .refl _

end Memory

namespace Traffic

/-- What the writer tries to write in its next step, if it does. -/
def attempt? (s : Traffic) : Option Memory :=
  match s.writer with
  | .idle m => s.queue.head?.bind (·.job.attempt? m)
  | .busy _ start c [] => some (c.put (c.subject.touch start)).memory
  | .busy _ start c (a :: _) => a.attempt? start c.memory

/-- All that a step of the writer does to the memory. -/
theorem goes_work (now : Moment) (s : Traffic) :
    s.memory.Goes s.attempt? (s.work now).memory := by
  cases hwriter : s.writer with
  | idle m =>
    have hmemory : s.memory = m := by simp [memory, hwriter]
    cases hqueue : s.queue with
    | nil =>
      have hwork : s.work now = s := by simp [work, hwriter, hqueue]
      have hattempt : s.attempt? = none := by simp [attempt?, hwriter, hqueue]
      rw [hwork, hattempt]
      exact .refl _
    | cons t r =>
      have hwork : s.work now = ({ s with queue := r } : Traffic).begin now t m := by
        simp [work, hwriter, hqueue]
      have hattempt : s.attempt? = t.job.attempt? m := by simp [attempt?, hwriter, hqueue]
      rw [hmemory, hwork, hattempt]
      unfold begin
      cases t.job with
      | add n => exact .tried _
      | delete id => exact Memory.goes_delete id m
      | change id actions =>
        cases hn : m.notes.get? id with
        | none => simpa [hn, memory, finish, Job.attempt?] using Memory.Goes.refl m
        | some n => simpa [hn, memory, Job.attempt?] using Memory.Goes.refl m
  | busy t start c left =>
    have hmemory : s.memory = c.memory := by simp [memory, hwriter]
    rw [hmemory]
    cases left with
    | nil =>
      have hwork : (s.work now).memory = (c.put (c.subject.touch start)).memory.persist := by
        simp [work, hwriter, memory, finish, Memory.Change.close]
      have hattempt : s.attempt? = some (c.put (c.subject.touch start)).memory := by
        simp [attempt?, hwriter]
      rw [hwork, hattempt, Memory.Change.memory_put]
      exact .tried _
    | cons a left =>
      have hwork : (s.work now).memory = (c.act start a).1.memory := by
        simp only [work, hwriter, act]
        split <;> rfl
      have hattempt : s.attempt? = a.attempt? start c.memory := by simp [attempt?, hwriter]
      rw [hwork, hattempt]
      exact Memory.goes_act start c a

/-- What is tried to be written as something happens. -/
def attemptAt? (s : Traffic) : Event → Option Memory
  | .work _ => s.attempt?
  | _ => none

theorem goes_step (s : Traffic) (e : Event) :
    s.memory.Goes (s.attemptAt? e) (s.step e).memory := by
  cases e with
  | call name j =>
    have hmemory : (s.step (.call name j)).memory = s.memory := by
      simp only [step]
      split <;> rfl
    rw [hmemory]
    exact .refl _
  | goOn name =>
    have hmemory : (s.step (.goOn name)).memory = s.memory := by
      simp only [step]
      split <;> rfl
    rw [hmemory]
    exact .refl _
  | work now => exact goes_work now s

end Traffic

end Notebook
