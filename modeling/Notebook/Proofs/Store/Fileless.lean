import Mathlib.Data.List.Induction
import Notebook.Proofs.Store.Traffic

/-!
# Stores without a file

A store does the same to its notes whether it has a file or not, as long as that has a path at all.
What becomes of the notes can therefore be told from the same store without one, where nothing is
ever written.
-/

namespace Notebook

namespace Memory

/-- The same notes in a store that has no file. -/
def bare (m : Memory) : Memory := ⟨m.notes, [], none, .idle⟩

theorem bare_persist (m : Memory) : m.persist.bare = m.bare := by
  unfold bare
  rw [notes_persist]

theorem onPath_bare (m : Memory) : m.bare.OnPath := by
  intro path hpath
  cases hpath

theorem add_bare (n : Note) (m : Memory) : m.bare.add n = (m.add n).bare :=
  (bare_persist (m.withNote n)).symm

theorem delete_bare (id : Text) (m : Memory) : m.bare.delete id = (m.delete id).bare := by
  unfold delete
  by_cases h : (m.notes.get? id).isSome
  · have hbare : (m.bare.notes.get? id).isSome := h
    rw [if_pos h, if_pos hbare]
    exact (bare_persist (m.without id)).symm
  · have hbare : ¬ (m.bare.notes.get? id).isSome := h
    rw [if_neg h, if_neg hbare]

namespace Change

def bare (c : Change) : Change := { c with memory := c.memory.bare }

theorem put_bare (n : Note) (c : Change) : c.bare.put n = (c.put n).bare := by
  unfold put bare
  cases c.filed <;> rfl

/-- An action does the same to the notes whether there is a file or not. -/
theorem act_bare (now : Moment) {c : Change} (h : c.memory.OnPath) (a : Action) :
    c.bare.act now a = ((c.act now a).1.bare, (c.act now a).2) := by
  have hsubject : c.bare.subject = c.subject := rfl
  cases a with
  | set field value =>
    simp only [act, hsubject]
    cases c.subject.assign field value with
    | ok n => simp only [put_bare]
    | faulty fs => rfl
    | broken b => rfl
  | appendTag tag => simp only [act, hsubject, put_bare]
  | fail => rfl
  | add record =>
    simp only [act]
    cases Note.ofJson now record with
    | ok n =>
      have hadd : c.bare.memory.add n = (c.memory.add n).bare := add_bare n c.memory
      have hnone : (c.memory.withNote n).failure? = none := h.failureOf? (.add n)
      have hbare : (c.bare.memory.withNote n).failure? = none :=
        (onPath_bare c.memory).failureOf? (.add n)
      simp only [hadd, hnone, hbare]
      rfl
    | faulty fs => rfl
    | broken b => rfl
  | delete id =>
    have hdelete : c.bare.memory.delete id = (c.memory.delete id).bare := delete_bare id c.memory
    have hbare : c.bare.memory.deleteFailure? id = none := (onPath_bare c.memory).deleteFailure? id
    simp only [act, hdelete, h.deleteFailure? id, hbare]
    rfl
  | submit id actions => rfl
  | suggest tags confidences time =>
    simp only [act, hsubject, put_bare]
    cases Fields.list Fields.number
        (.arr ((newTags c.subject.tags tags confidences).map Prod.snd)) with
    | ok xs => rfl
    | faulty fs => rfl
    | broken b => rfl
  | embed g => simp only [act, hsubject, put_bare]

theorem close_bare (now : Moment) (c : Change) (ended : Bool) :
    c.bare.close now ended = (c.close now ended).bare := by
  cases ended with
  | false => rfl
  | true =>
    have hput : (c.bare.put (c.subject.touch now)).memory =
        (c.put (c.subject.touch now)).memory.bare :=
      congrArg Change.memory (put_bare _ c)
    show (c.bare.put (c.subject.touch now)).memory.persist =
      (c.put (c.subject.touch now)).memory.persist.bare
    rw [hput, bare_persist]
    rfl

end Change

end Memory

namespace Traffic

def bare (s : Traffic) : Traffic :=
  { s with
    writer := match s.writer with
      | .idle m => .idle m.bare
      | .busy t start c left => .busy t start c.bare left }

theorem memory_bare (s : Traffic) : s.bare.memory = s.memory.bare := by
  unfold memory bare
  cases s.writer <;> rfl

theorem begin_bare (now : Moment) (t : Ticket) (m : Memory) (s : Traffic) :
    s.bare.begin now t m.bare = (s.begin now t m).bare := by
  unfold begin
  cases t.job with
  | add n =>
    have hrun : (Memory.run now (.add n) m.bare).1 = (Memory.run now (.add n) m).1.bare :=
      Memory.add_bare n m
    simp only [hrun]
    rfl
  | delete id =>
    have hrun : (Memory.run now (.delete id) m.bare).1 = (Memory.run now (.delete id) m).1.bare :=
      Memory.delete_bare id m
    simp only [hrun]
    rfl
  | change id actions =>
    have hnotes : m.bare.notes = m.notes := rfl
    simp only [hnotes]
    cases m.notes.get? id with
    | none => rfl
    | some n => rfl

theorem act_bare (t : Ticket) (start : Moment) {c : Memory.Change} (h : c.memory.OnPath)
    (a : Action) (left : List Action) (s : Traffic) :
    s.bare.act t start c.bare a left = (s.act t start c a left).bare := by
  unfold act
  rw [Memory.Change.act_bare start h]
  cases c.act start a with
  | mk d goesOn =>
    cases goesOn with
    | true => rfl
    | false =>
      simp only [Memory.Change.close_bare]
      rfl

/-- The writer does the same to the notes whether there is a file or not. -/
theorem work_bare (now : Moment) {s : Traffic} (h : s.memory.OnPath) :
    s.bare.work now = (s.work now).bare := by
  cases hwriter : s.writer with
  | idle m =>
    have hbare : s.bare.writer = .idle m.bare := by simp [bare, hwriter]
    have hqueue : s.bare.queue = s.queue := rfl
    simp only [work, hwriter, hbare, hqueue]
    cases s.queue with
    | nil => rfl
    | cons t r => exact begin_bare now t m { s with queue := r }
  | busy t start c left =>
    have hbare : s.bare.writer = .busy t start c.bare left := by simp [bare, hwriter]
    have hmemory : s.memory = c.memory := by simp [memory, hwriter]
    simp only [work, hwriter, hbare]
    cases left with
    | nil =>
      simp only [Memory.Change.close_bare]
      rfl
    | cons a left => exact act_bare t start (hmemory ▸ h) a left s

theorem step_bare {s : Traffic} (h : s.memory.OnPath) (e : Event) :
    s.bare.step e = (s.step e).bare := by
  have hphase : s.bare.phase = s.phase := rfl
  cases e with
  | call name j =>
    simp only [step, hphase]
    split <;> rfl
  | goOn name =>
    simp only [step, hphase]
    split <;> rfl
  | work now => exact work_bare now h

end Traffic

end Notebook
