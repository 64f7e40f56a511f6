import Notebook.Analysis.Pipeline
import Notebook.Proofs.Store.Filed
import Notebook.Proofs.Store.OnPath
import Notebook.Query.Matching

/-!
# What an analysis leaves alone

The face of a note is the note without what an analysis finds out.  Queries word by word look at
faces only, and the jobs of an analysis change no face.
-/

namespace Notebook

/-- The note without what an analysis finds out, and without the time of its last change. -/
def Note.face (n : Note) : Note :=
  { n with embedding := none, suggestedTags := [], tagConfidences := [], lastAnalyzed := none,
           modified := n.created }

@[simp] theorem Note.id_face (n : Note) : n.face.id = n.id := rfl

theorem Descriptor.accepts_face (d : Descriptor) (t : Moment) (n : Note) :
    d.accepts t n.face = d.accepts t n := rfl

def faces (r : Keyed Note) : Keyed Note := r.map fun p => (p.1, p.2.face)

theorem keys_faces (r : Keyed Note) : (faces r).keys = r.keys := by
  simp [faces, Keyed.keys]

theorem values_faces (r : Keyed Note) : (faces r).values = r.values.map Note.face := by
  simp [faces, Keyed.values]

theorem Filed.of_faces_eq {r r' : Keyed Note} (h : Filed r) (he : faces r' = faces r) :
    Filed r' where
  nodup := by rw [← keys_faces, he, keys_faces]; exact h.nodup
  own p hp := by
    have hm : (p.1, p.2.face) ∈ faces r := he ▸ List.mem_map_of_mem hp
    obtain ⟨q, hq, hqp⟩ := List.mem_map.mp hm
    obtain ⟨h1, h2⟩ := Prod.ext_iff.mp hqp
    have h3 : q.2.face.id = p.2.face.id := congrArg Note.id h2
    simp only [Note.id_face] at h3
    rw [← h3, ← h1]
    exact h.own q hq

/-! ### Findings -/

/-- Does an action write down what an analysis has found out? -/
def Action.IsFinding : Action → Prop
  | .suggest .. => True
  | .embed _ => True
  | _ => False

namespace Memory.Change

/-- The subject of the change is filed, the faces are those of `r`, and nothing was submitted. -/
structure Veiled (r : Keyed Note) (c : Change) : Prop where
  filed : c.filed = true
  here : c.memory.notes.get? c.id = some c.subject
  faces_eq : faces c.memory.notes = faces r
  nothing : c.submitted = []

variable {r : Keyed Note} {c : Change}

theorem Veiled.put (h : c.Veiled r) {n : Note} (hn : n.face = c.subject.face) :
    (c.put n).Veiled r where
  filed := h.filed
  here := by simp [Change.put, h.filed, Keyed.get?_insert]
  faces_eq := by
    simp only [Change.put, h.filed, if_true]
    exact (Keyed.map_insert_of_get? h.here hn).trans h.faces_eq
  nothing := h.nothing

theorem Veiled.act (h : c.Veiled r) (now : Moment) {a : Action} (ha : a.IsFinding) :
    (c.act now a).1.Veiled r := by
  cases a with
  | suggest tags confidences time =>
    simp only [Change.act]
    split
    · refine Veiled.put (Veiled.put h ?_) ?_
      · rfl
      · rfl
    · exact Veiled.put h rfl
  | embed g => exact Veiled.put h rfl
  | _ => exact ha.elim

theorem Veiled.acts (h : c.Veiled r) (now : Moment) {as : List Action}
    (has : ∀ a ∈ as, a.IsFinding) : (c.acts now as).1.Veiled r := by
  induction as generalizing c with
  | nil => exact h
  | cons a as ih =>
    obtain ⟨ha, has⟩ := List.forall_mem_cons.mp has
    have h1 := h.act now ha
    unfold Change.acts
    split
    · next c' he =>
      rw [he] at h1
      exact ih h1 has
    · next c' he =>
      rw [he] at h1
      exact h1

end Memory.Change

/-- A change that only writes findings down changes no face and submits nothing. -/
theorem Memory.change_findings (now : Moment) (id : Text) {as : List Action}
    (has : ∀ a ∈ as, a.IsFinding) (m : Memory) :
    faces (m.change now id as).1.notes = faces m.notes ∧ (m.change now id as).2 = [] := by
  unfold Memory.change
  split
  · exact ⟨rfl, rfl⟩
  · next n hn =>
    have h0 : Change.Veiled m.notes ⟨id, n, true, m, []⟩ := ⟨rfl, hn, rfl, rfl⟩
    have h1 := h0.acts now has
    split
    · next c he =>
      rw [he] at h1
      rw [notes_persist]
      have h2 : (c.put (c.subject.touch now)).Veiled m.notes := h1.put rfl
      exact ⟨h2.faces_eq, h1.nothing⟩
    · next c he =>
      rw [he] at h1
      exact ⟨h1.faces_eq, h1.nothing⟩

/-! ### Jobs of an analysis -/

namespace Pipeline

theorem findings_outcome {now : Moment} {p : Pipeline} {j : AnalysisJob} {as : List Action}
    (h : (p.outcome now j).1 = some as) : ∀ a ∈ as, a.IsFinding := by
  unfold outcome at h
  split at h
  · obtain ⟨cs, -, rfl⟩ := Option.map_eq_some_iff.mp h
    simp [Action.IsFinding]
  · split at h
    · cases h
      simp [Action.IsFinding]
    · cases h

/-- One job of an analysis leaves the store ready, where it is, and changes no face. -/
theorem runAt_faces {p : Pipeline} (hp : p.store.Ready) (now : Moment) (i : Nat) :
    (p.runAt now i).store.Ready ∧
      faces (p.runAt now i).store.memory.notes = faces p.store.memory.notes ∧
      (p.runAt now i).store.memory.path = p.store.memory.path := by
  unfold runAt
  split
  · exact ⟨hp, rfl, rfl⟩
  · next j _ =>
    simp only [settle, perform]
    split
    · next as has =>
      obtain ⟨hfaces, hnone⟩ :=
        Memory.change_findings now j.id (findings_outcome has) p.store.memory
      rw [Store.settle_change_of_ready hp now j.id as hnone]
      exact ⟨⟨hp.isOpen, hnone⟩, hfaces, Memory.path_run now _ p.store.memory⟩
    · have hr : p.store.channel.running = true := hp.isOpen
      simp only [Store.settle, Channel.settle, hr, if_true, hp.idle, Channel.drain_nil]
      exact ⟨⟨rfl, rfl⟩, rfl, rfl⟩

theorem runOldest_faces {p : Pipeline} (hp : p.store.Ready) (now : Moment) (n : Nat) :
    (p.runOldest now n).store.Ready ∧
      faces (p.runOldest now n).store.memory.notes = faces p.store.memory.notes ∧
      (p.runOldest now n).store.memory.path = p.store.memory.path := by
  induction n generalizing p with
  | zero => exact ⟨hp, rfl, rfl⟩
  | succ n ih =>
    obtain ⟨hready, hfaces, hpath⟩ := runAt_faces hp now 0
    obtain ⟨hready', hfaces', hpath'⟩ := ih hready
    exact ⟨hready', hfaces'.trans hfaces, hpath'.trans hpath⟩

theorem runNewest_faces {p : Pipeline} (hp : p.store.Ready) (now : Moment) (n : Nat) :
    (p.runNewest now n).store.Ready ∧
      faces (p.runNewest now n).store.memory.notes = faces p.store.memory.notes ∧
      (p.runNewest now n).store.memory.path = p.store.memory.path := by
  induction n generalizing p with
  | zero => exact ⟨hp, rfl, rfl⟩
  | succ n ih =>
    obtain ⟨hready, hfaces, hpath⟩ := runAt_faces hp now (p.pending.length - 1)
    obtain ⟨hready', hfaces', hpath'⟩ := ih hready
    exact ⟨hready', hfaces'.trans hfaces, hpath'.trans hpath⟩

end Pipeline

end Notebook
