import Mathlib.Data.List.Infix
import Notebook.Proofs.Basic
import Notebook.Note.Record
import Notebook.Proofs.Note.Record
import Notebook.Proofs.Store.Traffic
import Notebook.Store.Basic

/-!
# Notes that get another id

A note is filed under the id that it has when it is put in, and stays there when a change gives it
another one.  As long as no change does so, every note stands under its own id, and the ids are
all different.
-/

namespace Notebook

/-! ### Ids of notes -/

theorem Note.id_setField {f : Note.Field} (hf : f ≠ .id) {v : Json} {n n' : Note}
    (h : n.setField f v = .ok n') : n'.id = n.id := by
  cases f with
  | id => exact absurd rfl hf
  | title | body | tags | favorite | archived | system | priority | progress | dueDate | tasks
  | embedding | suggestedTags | tagConfidences | lastAnalyzed | created | modified =>
    obtain ⟨x, -, rfl⟩ := Checked.map_eq_ok_iff.mp h
    rfl

/-- Nothing but a text set under the name of that field changes the id of a note. -/
theorem Note.id_assign {name : Text} {v : Json} {n n' : Note} (h : n.assign name v = .ok n') :
    n'.id = n.id ∨ name = "id" ∧ v = .str n'.id := by
  rcases Note.assign_eq_ok h with rfl | ⟨f, rfl, hset⟩
  · exact .inl rfl
  · by_cases hf : f = .id
    · subst hf
      obtain ⟨x, hx, rfl⟩ := Checked.map_eq_ok_iff.mp hset
      refine .inr ⟨rfl, ?_⟩
      cases v with
      | str i =>
        cases hx
        rfl
      | null | bool | int | float | arr | obj => cases hx
    · exact .inl (Note.id_setField hf hset)

/-! ### Notes in order -/

/-- What one takes for granted: a note that is found has the id that was looked for, and no two
notes have one id. -/
structure Memory.InOrder (m : Memory) : Prop where
  own : ∀ id n, m.notes.get? id = some n → n.id = id
  distinct : (m.notes.values.map (·.id)).Nodup

theorem Filed.inOrder {m : Memory} (h : Filed m.notes) : m.InOrder where
  own _ _ hn := h.own _ (Keyed.mem_of_get? hn)
  distinct := h.nodup_ids

/-- What a store has in memory when it is made: notes that are given, or those of its file. -/
inductive Memory.Made : Memory → Prop
  | ofNotes (ns : List Note) (disk : Disk) (shared : Bool) :
      Made (Store.ofNotes ns disk shared).memory
  | ofFile {now : Moment} {path : Option Text} {disk : Disk} {shared : Bool} {s : Store}
      (h : Store.open? now path disk shared = .ok s) : Made s.memory

theorem Memory.filed_load {now : Moment} {path : Option Text} {disk : Disk} {m : Memory}
    (h : Memory.load now path disk = .ok m) : Filed m.notes := by
  unfold Memory.load at h
  split at h
  · cases h
    exact Filed.nil
  · split at h
    · cases h
    · cases h
      exact Filed.nil
    · split at h
      · cases h
      · obtain ⟨ns, -, rfl⟩ := except_map_eq_ok_iff.mp h
        exact filed_filed ns

theorem Memory.Made.filed {m : Memory} (h : m.Made) : Filed m.notes := by
  cases h with
  | ofNotes ns disk shared => exact filed_filed ns
  | ofFile hopen =>
    obtain ⟨m, hload, rfl⟩ := except_map_eq_ok_iff.mp hopen
    exact Memory.filed_load hload

/-! ### Changes -/

namespace Memory.Change

variable {c : Change}

/-- As long as a note is filed, it stands under its own id. -/
theorem Placed.id_subject (h : c.Placed) (hnotes : Filed c.memory.notes) (hfiled : c.filed = true) :
    c.subject.id = c.id := hnotes.own _ (Keyed.mem_of_get? (h hfiled))

theorem filed_put {n : Note} (hnotes : Filed c.memory.notes) (hid : c.filed = true → n.id = c.id) :
    Filed (c.put n).memory.notes := by
  unfold put
  simp only
  split
  · next hfiled =>
    show Filed (Keyed.insert c.id n c.memory.notes)
    rw [← hid hfiled]
    exact hnotes.insert n
  · exact hnotes

/-- Does an action give the note of a change another id than that under which it stands? -/
def renames (c : Change) : Action → Bool
  | .set field (.str id) => field = "id" && c.filed && id ≠ c.id
  | _ => false

theorem filed_act (h : c.Placed) (hnotes : Filed c.memory.notes) {a : Action}
    (ha : c.renames a = false) (now : Moment) : Filed (c.act now a).1.memory.notes := by
  have hid := h.id_subject hnotes
  cases a with
  | set field value =>
    simp only [act]
    split
    · next n hn =>
      refine filed_put hnotes fun hfiled => ?_
      rcases Note.id_assign hn with hsame | ⟨rfl, rfl⟩
      · rw [hsame, hid hfiled]
      · simpa [renames, hfiled] using ha
    · exact hnotes
  | appendTag tag => exact filed_put hnotes hid
  | fail => exact hnotes
  | add record =>
    simp only [act]
    split
    · next n hn =>
      show Filed (c.memory.add n).notes
      rw [notes_add]
      exact hnotes.insert n
    · exact hnotes
  | delete id =>
    show Filed (c.memory.delete id).notes
    rw [notes_delete]
    exact hnotes.erase id
  | submit id actions => exact hnotes
  | suggest tags confidences time =>
    simp only [act]
    split
    · exact filed_put (filed_put hnotes hid) hid
    · exact filed_put hnotes hid
  | embed g => exact filed_put hnotes hid

theorem filed_close (h : c.Placed) (hnotes : Filed c.memory.notes) (now : Moment) (ended : Bool) :
    Filed (c.close now ended).notes := by
  cases ended with
  | false => exact hnotes
  | true =>
    show Filed (c.put (c.subject.touch now)).memory.persist.notes
    rw [notes_persist]
    exact filed_put hnotes (h.id_subject hnotes)

/-- A note with another id is found where it stood before. -/
theorem get?_act_of_renames {a : Action} (ha : c.renames a = true) (now : Moment) :
    ∃ n, (c.act now a).1.memory.notes.get? c.id = some n ∧ n.id ≠ c.id := by
  unfold renames at ha
  split at ha
  · next field id =>
    simp only [Bool.and_eq_true, decide_eq_true_eq] at ha
    obtain ⟨⟨rfl, hfiled⟩, hid⟩ := ha
    refine ⟨{ c.subject with id := id }, ?_, hid⟩
    exact placed_put (c := c) { c.subject with id := id } hfiled
  · cases ha

end Memory.Change

/-! ### Stores in use -/

/-- What is done with a store.  It may also be opened anew, on what there is on the disk by then. -/
inductive Use
  | event (e : Traffic.Event)
  | reopen (now : Moment) (disk : Disk)

namespace Traffic

/-- A store that cannot be opened is left as it is. -/
def use (s : Traffic) : Use → Traffic
  | .event e => s.step e
  | .reopen now disk =>
    match Store.open? now s.memory.path disk false with
    | .ok t => new t.memory
    | .error _ => s

def useAll (s : Traffic) (uses : List Use) : Traffic := uses.foldl use s

theorem useAll_concat (s : Traffic) (uses : List Use) (u : Use) :
    s.useAll (uses ++ [u]) = (s.useAll uses).use u := by simp [useAll]

/-- Is the writer about to give a note another id than that under which it stands? -/
def renames (s : Traffic) : Bool :=
  match s.writer with
  | .busy _ _ c (a :: _) => c.renames a
  | _ => false

/-- Every note stands under its own id, and the writer knows where that of its change stands. -/
structure Kept (s : Traffic) : Prop where
  filed : Filed s.memory.notes
  placed : ∀ {t start c left}, s.writer = .busy t start c left → c.Placed

variable {s : Traffic}

theorem kept_new {m : Memory} (h : Filed m.notes) : (new m).Kept := ⟨h, fun hbusy => by cases hbusy⟩

theorem kept_finish (t : Ticket) (start : Moment) {m : Memory} (h : Filed m.notes) :
    (s.finish t start m).Kept := ⟨h, fun hbusy => by cases hbusy⟩

theorem kept_begin (now : Moment) (t : Ticket) {m : Memory} (h : Filed m.notes) :
    (s.begin now t m).Kept := by
  unfold begin
  split
  · split
    · next hn =>
      refine ⟨h, fun hbusy => ?_⟩
      cases hbusy
      exact fun _ => hn
    · exact kept_finish t now h
  · refine kept_finish t now ?_
    cases hjob : t.job with
    | add n =>
      show Filed (m.add n).notes
      rw [Memory.notes_add]
      exact h.insert n
    | delete id =>
      show Filed (m.delete id).notes
      rw [Memory.notes_delete]
      exact h.erase id
    | change id actions => simp_all

theorem Kept.work (h : s.Kept) (hs : s.renames = false) (now : Moment) : (s.work now).Kept := by
  obtain ⟨hfiled, hplaced⟩ := h
  unfold memory at hfiled
  unfold renames at hs
  unfold Traffic.work
  cases hw : s.writer with
  | idle m =>
    rw [hw] at hfiled
    simp only
    split
    · exact ⟨by unfold memory; rwa [hw], fun hbusy => by rw [hw] at hbusy; cases hbusy⟩
    · exact kept_begin now _ hfiled
  | busy t start c left =>
    rw [hw] at hfiled hs
    have hc : c.Placed := hplaced hw
    cases left with
    | nil => exact kept_finish t start (Memory.Change.filed_close hc hfiled start true)
    | cons a left =>
      have hact := Memory.Change.filed_act hc hfiled hs start
      simp only [act]
      split
      · refine ⟨hact, fun hbusy => ?_⟩
        cases hbusy
        exact hc.act start a
      · exact kept_finish t start hact

theorem Kept.step (h : s.Kept) {e : Event} (he : ∀ now, e = .work now → s.renames = false) :
    (s.step e).Kept := by
  cases e with
  | call name j =>
    simp only [Traffic.step]
    split
    · exact ⟨h.filed, h.placed⟩
    · exact h
  | goOn name =>
    simp only [Traffic.step]
    split
    · exact ⟨h.filed, h.placed⟩
    · exact h
  | work now => exact h.work (he now rfl) now

theorem Kept.use (h : s.Kept) {u : Use} (hu : ∀ now, u = .event (.work now) → s.renames = false) :
    (s.use u).Kept := by
  cases u with
  | event e => exact h.step fun now he => hu now (congrArg Use.event he)
  | reopen now disk =>
    simp only [Traffic.use]
    split
    · next hopen => exact kept_new (Memory.Made.ofFile hopen).filed
    · exact h

theorem not_inOrder_work (hs : s.renames = true) (now : Moment) :
    ¬ (s.work now).memory.InOrder := by
  unfold renames at hs
  split at hs
  · next t start c a left hbusy =>
    obtain ⟨n, hn, hid⟩ := Memory.Change.get?_act_of_renames hs start
    have hmemory : (s.work now).memory = (c.act start a).1.memory := by
      simp only [work, hbusy, act]
      split <;> rfl
    rw [← hmemory] at hn
    exact fun h => hid (h.own _ _ hn)
  · cases hs

/-- All the time every note is found under its own id and no two notes have one id, if and only if
no change gives a note another id than that under which it stands. -/
theorem inOrder_useAll_iff {m : Memory} (hm : m.Made) (uses : List Use) :
    (∀ before, before <+: uses → ((new m).useAll before).memory.InOrder) ↔
      ∀ before now, before ++ [.event (.work now)] <+: uses →
        ((new m).useAll before).renames = false := by
  constructor
  · intro h before now hprefix
    by_contra hrenames
    have horder := h _ hprefix
    rw [useAll_concat] at horder
    exact not_inOrder_work (by simpa using hrenames) now horder
  · intro h before hprefix
    suffices hkept : ((new m).useAll before).Kept from hkept.filed.inOrder
    induction before using List.reverseRecOn with
    | nil => exact kept_new hm.filed
    | append_singleton before u ih =>
      rw [useAll_concat]
      refine (ih ((List.prefix_append before [u]).trans hprefix)).use fun now hu => ?_
      exact h before now (hu ▸ hprefix)

/-- An id that is set to itself does no harm. -/
theorem inOrder_useAll_unchanged :
    let t := Moment.ofDate .first
    let m := (Store.ofNotes [.plain "a" "milk" t, .plain "b" "tea" t] [] false).memory
    let uses := [.event (.call 0 (.change "a" [.set "id" (.str "a"), .set "title" (.str "oat")])),
      .event (.work t), .event (.work t), .event (.work t), .event (.work t), .reopen t []]
    m.Made ∧ ∀ before, before <+: uses → ((new m).useAll before).memory.InOrder := by
  intro t m uses
  have hall : ∀ before ∈ uses.inits, ((new m).useAll before).renames = false := by
    decide +kernel
  refine ⟨.ofNotes _ _ _, (inOrder_useAll_iff (.ofNotes _ _ _) uses).mpr fun before now h => ?_⟩
  exact hall before ((List.mem_inits _ _).mpr ((List.prefix_append _ _).trans h))

/-- A note that gets the id of another one stands where it was, and two notes have one id. -/
theorem not_inOrder_useAll :
    let t := Moment.ofDate .first
    let m := (Store.ofNotes [.plain "a" "milk" t, .plain "b" "tea" t] [] false).memory
    let s := (new m).useAll
      [.event (.call 0 (.change "a" [.set "id" (.str "b")])), .event (.work t), .event (.work t)]
    m.Made ∧ (s.memory.notes.get? "a").map (·.id) = some ("b" : Text) ∧
      s.memory.notes.values.map (·.id) = [("b" : Text), "b"] ∧ ¬ s.memory.InOrder := by
  intro t m s
  have hids : s.memory.notes.values.map (·.id) = [("b" : Text), "b"] := by decide +kernel
  refine ⟨.ofNotes _ _ _, by decide +kernel, hids, fun h => ?_⟩
  have hdistinct := h.distinct
  rw [hids] at hdistinct
  exact absurd hdistinct (by decide)

end Traffic

end Notebook
