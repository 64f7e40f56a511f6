import Notebook.Proofs.Keyed
import Notebook.Store.Basic

/-!
# Notes filed under their own ids

A store files a note under the id that the note has then.  Adding and deleting keep every note
under its own id, and so does a change that leaves ids alone.
-/

namespace Notebook

/-- Every note stands under its own id, and no id twice. -/
structure Filed (r : Keyed Note) : Prop where
  nodup : r.keys.Nodup
  own : ∀ p ∈ r, p.2.id = p.1

namespace Filed

variable {r : Keyed Note}

theorem nil : Filed [] := ⟨List.nodup_nil, by simp⟩

/-- The ids of the notes are the keys, in order. -/
theorem map_id (h : Filed r) : r.values.map (·.id) = r.keys := by
  unfold Keyed.values Keyed.keys
  rw [List.map_map]
  exact List.map_congr_left h.own

theorem nodup_ids (h : Filed r) : (r.values.map (·.id)).Nodup := h.map_id ▸ h.nodup

theorem insert (h : Filed r) (n : Note) : Filed (Keyed.insert n.id n r) where
  nodup := Keyed.nodup_keys_insert h.nodup _ _
  own p hp := by
    rcases Keyed.mem_insert hp with rfl | hp
    · rfl
    · exact h.own p hp

theorem erase (h : Filed r) (id : Text) : Filed (Keyed.erase id r) where
  nodup := Keyed.nodup_keys_erase h.nodup _
  own p hp := h.own p (Keyed.mem_erase.mp hp).1

/-- Without the note of an id the other notes are left. -/
theorem values_erase (h : Filed r) (id : Text) :
    (Keyed.erase id r).values = r.values.filter (·.id ≠ id) := by
  unfold Keyed.erase Keyed.values
  rw [List.filter_map]
  congr 1
  refine List.filter_congr fun p hp => ?_
  simp [h.own p hp]

end Filed

theorem filed_filed (ns : List Note) : Filed (Memory.filed ns) := by
  unfold Memory.filed
  induction ns using List.reverseRecOn with
  | nil => exact Filed.nil
  | append_singleton ns n ih =>
    rw [List.map_append, List.map_singleton, Keyed.ofPairs_concat]
    exact ih.insert n

/-! ### Single notes -/

namespace Memory

@[simp] theorem notes_add (n : Note) (m : Memory) :
    (m.add n).notes = Keyed.insert n.id n m.notes := notes_persist _

theorem notes_delete (id : Text) (m : Memory) :
    (m.delete id).notes = Keyed.erase id m.notes := by
  unfold delete
  split
  · exact notes_persist _
  · next h =>
    rw [Keyed.isSome_get?_iff] at h
    symm
    refine List.filter_eq_self.mpr fun p hp => ?_
    have : p.1 ∈ Keyed.keys m.notes := List.mem_map_of_mem hp
    simpa using fun hid : p.1 = id => h (hid ▸ this)

end Memory

/-! ### Stores that stand ready -/

namespace Store

/-- The writer runs and has nothing to do. -/
structure Ready (s : Store) : Prop where
  isOpen : s.isOpen = true
  idle : s.channel.queue = []

theorem ready_ofNotes (ns : List Note) (disk : Disk) (shared : Bool) :
    (ofNotes ns disk shared).Ready := ⟨rfl, rfl⟩

/-- The store after the writer has done one job and what that job has submitted is left. -/
def after (now : Moment) (j : Job) (s : Store) : Store :=
  { s with channel :=
    { s.channel with state := (Memory.run now j s.memory).1
                     queue := (Memory.run now j s.memory).2 } }

theorem write?_of_ready {s : Store} (hs : s.Ready) (now : Moment) (j : Job) :
    s.write? now j = some (s.after now j) := by
  have hr : s.channel.running = true := hs.isOpen
  simp [write?, hs.isOpen, Channel.flush, hr, Channel.submit, hs.idle, Channel.steps, Channel.step,
    after, memory, Memory.worker]

theorem settle_change_of_ready {s : Store} (hs : s.Ready) (now : Moment) (id : Text)
    (as : List Action) (hj : (Memory.change now id as s.memory).2 = []) :
    ((s.change id as).settle now).2 = s.after now (.change id as) := by
  have hr : s.channel.running = true := hs.isOpen
  have hrun : (Memory.run now (.change id as) s.memory).2 = [] := hj
  have hd : Channel.drain (Memory.worker now) s.memory [.change id as] =
      (Memory.run now (.change id as) s.memory).1 := by
    rw [Channel.drain]
    simp [Memory.worker, hrun]
  simp only [settle, change, submit, Channel.settle, Channel.submit, hr, hs.idle, if_true,
    List.nil_append, after, hrun]
  rw [← hd]
  rfl

end Store

end Notebook
