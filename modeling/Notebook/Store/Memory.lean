import Notebook.Disk
import Notebook.Json.Writer
import Notebook.Store.Action
import Notebook.Store.Channel

/-!
# What the writer of a store works on

The notes under their ids, the disk, and the outcome of the last time when the notes were written
to it.  A note is filed under the id that it had when it was put in.
-/

namespace Notebook

-- A sum begins with the zero of the core library here, whatever is imported besides.
attribute [local instance (high)] Zero.ofOfNat0

inductive SyncStatus
  | idle
  | syncing
  | success
  | error (message : String)
  deriving DecidableEq, Repr

namespace SyncStatus

def name : SyncStatus → String
  | .idle => "idle"
  | .syncing => "syncing"
  | .success => "success"
  | .error _ => "error"

def message : SyncStatus → String
  | .error m => m
  | _ => ""

/-- What is known of a writing after an error.  One that is not the system's is not taken down. -/
def ofError (e : FileError) : SyncStatus :=
  if e.reason.isSystems then .error e.message else .syncing

theorem ofError_ne_success (e : FileError) : ofError e ≠ .success := by
  unfold ofError
  split <;> nofun

end SyncStatus

structure Memory where
  notes : Keyed Note
  disk : Disk
  /-- The file of the store, if it has one. -/
  path : Option Text
  sync : SyncStatus
  deriving DecidableEq

namespace Memory

/-! ### Writing to the disk -/

def record (notes : List Note) : Json := .obj [("notes", .arr (notes.map Note.toRecord))]

/-- The text of a file with the given notes. -/
def fileText (notes : List Note) : String := (record notes).toText

def save (path : Text) (m : Memory) : Except FileError Disk :=
  m.disk.write path (.ofString (fileText m.notes.values))

/-- Write the notes to the file of the store and take down how that went, unless the path is none.
What is kept in memory does not depend on it. -/
def persist (m : Memory) : Memory :=
  match m.path with
  | none => m
  | some path =>
    let m := { m with sync := .syncing }
    match m.save path with
    | .ok disk => { m with disk := disk, sync := .success }
    | .error e => { m with sync := .ofError e }

/-- The error with which `persist` ends if it does not take it down. -/
def failure? (m : Memory) : Option FileError :=
  m.path.bind fun path =>
    match m.save path with
    | .ok _ => none
    | .error e => if e.reason.isSystems then none else some e

theorem notes_persist (m : Memory) : m.persist.notes = m.notes := by
  unfold persist
  split
  · rfl
  · simp only
    split <;> rfl

/-! ### Single notes -/

def withNote (n : Note) (m : Memory) : Memory := { m with notes := Keyed.insert n.id n m.notes }

def without (id : Text) (m : Memory) : Memory := { m with notes := Keyed.erase id m.notes }

def add (n : Note) (m : Memory) : Memory := (m.withNote n).persist

/-- Nothing is written if there is no such note. -/
def delete (id : Text) (m : Memory) : Memory :=
  if (m.notes.get? id).isSome then (m.without id).persist else m

/-- The error with which the deletion of a note ends. -/
def deleteFailure? (id : Text) (m : Memory) : Option FileError :=
  if (m.notes.get? id).isSome then (m.without id).failure? else none

/-! ### Changes -/

/-- A change on its way: the note filed under `id` when it began, as it is now; whether it is still
filed there; and the jobs submitted so far. -/
structure Change where
  id : Text
  subject : Note
  filed : Bool
  memory : Memory
  submitted : List Job

namespace Change

/-- The subject with new contents. -/
def put (n : Note) (c : Change) : Change :=
  { c with
    subject := n
    memory := if c.filed then { c.memory with notes := Keyed.insert c.id n c.memory.notes }
      else c.memory }

/-- The suggestions that name no tag of the note. -/
def newTags (own : List Text) (tags : List Text) (confidences : List Json) :
    List (Text × Json) :=
  (tags.zip confidences).filter fun p => !own.contains p.1

/-- Carry out one action at the moment `now`.  The answer is false if the change ends there. -/
def act (now : Moment) (c : Change) : Action → Change × Bool
  | .set field value =>
    match c.subject.assign field value with
    | .ok n => (c.put n, true)
    | _ => (c, false)
  | .appendTag tag => (c.put { c.subject with tags := c.subject.tags ++ [tag] }, true)
  | .fail => (c, false)
  | .add record =>
    match Note.ofJson now record with
    | .ok n =>
      ({ c with memory := c.memory.add n, filed := c.filed && n.id ≠ c.id },
        (c.memory.withNote n).failure?.isNone)
    | _ => (c, false)
  | .delete id =>
    ({ c with memory := c.memory.delete id, filed := c.filed && id ≠ c.id },
      (c.memory.deleteFailure? id).isNone)
  | .submit id actions => ({ c with submitted := c.submitted ++ [.change id actions] }, true)
  | .suggest tags confidences time =>
    let kept := newTags c.subject.tags tags confidences
    let c := c.put { c.subject with suggestedTags := kept.map Prod.fst }
    match Fields.list Fields.number (.arr (kept.map Prod.snd)) with
    | .ok xs =>
      (c.put { c.subject with tagConfidences := xs, lastAnalyzed := some time.zoned }, true)
    | _ => (c, false)
  | .embed g => (c.put { c.subject with embedding := g }, true)

/-- Carry out actions until one of them ends the change. -/
def acts (now : Moment) (c : Change) : List Action → Change × Bool
  | [] => (c, true)
  | a :: as =>
    match c.act now a with
    | (c, true) => acts now c as
    | (c, false) => (c, false)

end Change

/-- Change a note at the moment `now`.  A change that came to its end is marked on the note and
written to the disk; one that was given up keeps what it has done so far.  If the note is gone,
nothing is done. -/
def change (now : Moment) (id : Text) (actions : List Action) (m : Memory) :
    Memory × List Job :=
  match m.notes.get? id with
  | none => (m, [])
  | some n =>
    match (Change.mk id n true m []).acts now actions with
    | (c, true) => ((c.put (c.subject.touch now)).memory.persist, c.submitted)
    | (c, false) => (c.memory, c.submitted)

/-! ### Jobs -/

def run (now : Moment) : Job → Memory → Memory × List Job
  | .add n, m => (m.add n, [])
  | .delete id, m => (m.delete id, [])
  | .change id actions, m => m.change now id actions

/-- The error that comes back to one who waits for a job. -/
def failureOf? : Job → Memory → Option FileError
  | .add n, m => (m.withNote n).failure?
  | .delete id, m => m.deleteFailure? id
  | .change .., _ => none

end Memory

namespace Memory.Change

theorem submitted_put (n : Note) (c : Change) : (c.put n).submitted = c.submitted := rfl

theorem size_act (now : Moment) (c : Change) (a : Action) :
    (((c.act now a).1.submitted).map Job.size).sum
      ≤ ((c.submitted).map Job.size).sum + a.size := by
  cases a <;> simp only [act]
  case submit id as => simp [Action.size_submit]
  all_goals
    repeat' split
    all_goals simp [submitted_put]

theorem size_acts (now : Moment) (c : Change) (as : List Action) :
    (((c.acts now as).1.submitted).map Job.size).sum
      ≤ ((c.submitted).map Job.size).sum + Action.sizes as := by
  induction as generalizing c with
  | nil => simp [acts, Action.sizes]
  | cons a as ih =>
    have h := size_act now c a
    simp only [acts, Action.sizes]
    split
    · next c' heq =>
      rw [heq] at h
      have := ih c'
      simp only at h
      omega
    · next c' heq =>
      rw [heq] at h
      simp only at h ⊢
      omega

end Memory.Change

namespace Memory

theorem size_run (now : Moment) (j : Job) (m : Memory) :
    (((run now j m).2).map Job.size).sum < j.size := by
  cases j with
  | add n => simp [run, Job.size]
  | delete id => simp [run, Job.size]
  | change id as =>
    simp only [run, change, Job.size]
    split
    · simp only [List.map_nil, List.sum_nil]; omega
    · next n _ =>
      have h := Change.size_acts now ⟨id, n, true, m, []⟩ as
      simp only [List.map_nil, List.sum_nil, Nat.zero_add] at h
      split <;> (next heq => rw [heq] at h; simp only at h ⊢; omega)

/-- The writer at the moment `now`. -/
def worker (now : Moment) : Worker Memory Job := ⟨run now, Job.size, size_run now⟩

end Memory

end Notebook
