import Notebook.Note.Record
import Notebook.Proofs.Store.Reload
import Notebook.Proofs.Store.Sound

/-!
# What success tells

The notes are written to the file of a store whenever a note is added or deleted and at the end of
every change.  A change that is given up is not written: what it has done to the notes so far stays
in memory until the next writing.  With this exception, a store that tells of success has a file
with just the notes that it holds, as far as a record can tell them.
-/

namespace Notebook

/-! ### What is not saved -/

namespace Memory

/-- Does an action leave notes behind that are not written?  `unsaved` tells whether there were
such notes before. -/
def Change.unsavedAfter (now : Moment) (c : Change) (unsaved : Bool) : Action → Bool
  | .add record => unsaved && (Note.ofJson now record).toOption.isNone
  | .delete id => unsaved && (c.memory.notes.get? id).isNone
  | a => unsaved || decide ((c.act now a).1.memory.notes ≠ c.memory.notes)

/-- The same for actions up to the one that ends the change. -/
def Change.unsavedAfterAll (now : Moment) (c : Change) (unsaved : Bool) : List Action → Bool
  | [] => unsaved
  | a :: as =>
    match c.act now a with
    | (d, true) => d.unsavedAfterAll now (c.unsavedAfter now unsaved a) as
    | (_, false) => c.unsavedAfter now unsaved a

/-- The same for a job.  Only a change that is given up may leave notes that are not written. -/
def unsavedAfter (now : Moment) (m : Memory) (unsaved : Bool) : Job → Bool
  | .add _ => false
  | .delete id => unsaved && (m.notes.get? id).isNone
  | .change id actions =>
    match m.notes.get? id with
    | none => unsaved
    | some n =>
      let c : Change := ⟨id, n, true, m, []⟩
      !(c.acts now actions).2 && c.unsavedAfterAll now unsaved actions

/-! ### One job -/

/-- If the last writing was a success and all is saved, the file holds the notes. -/
structure Agrees (path : Text) (unsaved : Bool) (m : Memory) : Prop where
  own : m.path = some path
  file : m.sync = .success → unsaved = false → Holds m.disk path m.notes.values

theorem agrees_persist {m : Memory} {path : Text} (h : m.path = some path) :
    m.persist.Agrees path false := by
  unfold persist
  rw [h]
  simp only
  split
  · next disk hdisk => exact ⟨rfl, fun _ _ => holds_of_write hdisk⟩
  · exact ⟨rfl, fun hsync => absurd hsync (SyncStatus.ofError_ne_success _)⟩

/-- If nothing but the notes has changed, the file still holds what it held. -/
theorem Agrees.of_notes {m m' : Memory} {path : Text} {unsaved : Bool}
    (h : m.Agrees path unsaved) (hm : m' = { m with notes := m'.notes }) :
    m'.Agrees path (unsaved || decide (m'.notes ≠ m.notes)) := by
  have hpath : m'.path = m.path := by rw [hm]
  have hsync : m'.sync = m.sync := by rw [hm]
  have hdisk : m'.disk = m.disk := by rw [hm]
  refine ⟨hpath.trans h.own, fun hsuccess hsaved => ?_⟩
  simp only [Bool.or_eq_false_iff, decide_eq_false_iff_not, not_not] at hsaved
  rw [hdisk, hsaved.2]
  exact h.file (hsync ▸ hsuccess) hsaved.1

theorem Agrees.add {m : Memory} {path : Text} {unsaved : Bool} (h : m.Agrees path unsaved)
    (n : Note) : (m.add n).Agrees path false := agrees_persist h.own

theorem Agrees.delete {m : Memory} {path : Text} {unsaved : Bool} (h : m.Agrees path unsaved)
    (id : Text) : (m.delete id).Agrees path (unsaved && (m.notes.get? id).isNone) := by
  unfold Memory.delete
  split
  · next hsome =>
    rw [← Option.not_isSome, hsome, Bool.not_true, Bool.and_false]
    exact agrees_persist h.own
  · next hnone =>
    rw [← Option.not_isSome, Bool.eq_false_of_not_eq_true hnone, Bool.not_false, Bool.and_true]
    exact h

namespace Change

/-- Contents that are put in place touch nothing but the notes. -/
theorem memory_put (n : Note) (c : Change) :
    (c.put n).memory = { c.memory with notes := (c.put n).memory.notes } := by
  unfold put
  simp only
  split <;> rfl

theorem agrees_put {c : Change} {path : Text} {unsaved : Bool}
    (h : c.memory.Agrees path unsaved) (n : Note) :
    (c.put n).memory.Agrees path
      (unsaved || decide ((c.put n).memory.notes ≠ c.memory.notes)) :=
  h.of_notes (memory_put n c)

theorem agrees_act {c : Change} {path : Text} {unsaved : Bool}
    (h : c.memory.Agrees path unsaved) (now : Moment) (a : Action) :
    (c.act now a).1.memory.Agrees path (c.unsavedAfter now unsaved a) := by
  cases a with
  | add record =>
    simp only [act, unsavedAfter]
    cases Note.ofJson now record with
    | ok n =>
      rw [Checked.toOption, Option.isNone_some, Bool.and_false]
      exact h.add n
    | faulty fs => simpa [Checked.toOption] using h
    | broken b => simpa [Checked.toOption] using h
  | delete id => exact h.delete id
  | set field value =>
    refine h.of_notes ?_
    simp only [act]
    split
    · exact memory_put _ c
    · rfl
  | appendTag tag => exact agrees_put h _
  | fail => exact h.of_notes rfl
  | submit id actions => exact h.of_notes rfl
  | suggest tags confidences time =>
    refine h.of_notes ?_
    simp only [act]
    split
    · rw [memory_put, memory_put]
    · exact memory_put _ c
  | embed g => exact agrees_put h _

theorem agrees_acts {c : Change} {path : Text} {unsaved : Bool}
    (h : c.memory.Agrees path unsaved) (now : Moment) (as : List Action) :
    (c.acts now as).1.memory.Agrees path (c.unsavedAfterAll now unsaved as) := by
  induction as generalizing c unsaved with
  | nil => exact h
  | cons a as ih =>
    have hact := agrees_act h now a
    cases hd : c.act now a with
    | mk d goesOn =>
      rw [hd] at hact
      simp only [acts, unsavedAfterAll, hd]
      cases goesOn with
      | true => exact ih hact
      | false => exact hact

end Change

/-- A job keeps memory and file in agreement, but for what a change that is given up has done. -/
theorem Agrees.run {m : Memory} {path : Text} {unsaved : Bool} (h : m.Agrees path unsaved)
    (now : Moment) (j : Job) :
    (Memory.run now j m).1.Agrees path (m.unsavedAfter now unsaved j) := by
  cases j with
  | add n => exact h.add n
  | delete id => exact h.delete id
  | change id actions =>
    show (change now id actions m).1.Agrees path _
    cases hn : m.notes.get? id with
    | none =>
      simp only [change, unsavedAfter, hn]
      exact h
    | some n =>
      have hacts := Change.agrees_acts (c := ⟨id, n, true, m, []⟩) h now actions
      cases hc : (Change.mk id n true m []).acts now actions with
      | mk c ended =>
        rw [hc] at hacts
        simp only [change, unsavedAfter, hn, hc]
        cases ended with
        | true => exact agrees_persist (Change.agrees_put hacts _).own
        | false => exact hacts

end Memory

/-! ### Runs of a store -/

namespace Store

/-- What happens to a store: somebody submits a job, or the writer does the next one. -/
inductive Step
  | submit (j : Job)
  | work (now : Moment)

/-- What is submitted is sound. -/
def Step.Sound : Step → Prop
  | .submit j => j.Sound
  | .work _ => True

def step (s : Store) : Step → Store
  | .submit j => s.submit j
  | .work now => { s with channel := s.channel.step (Memory.worker now) }

def run (s : Store) (steps : List Step) : Store := steps.foldl step s

/-- Does a step leave notes behind that are not written? -/
def unsavedAfter (s : Store) (unsaved : Bool) : Step → Bool
  | .submit _ => unsaved
  | .work now =>
    if s.channel.running then
      match s.channel.queue with
      | [] => unsaved
      | j :: _ => s.memory.unsavedAfter now unsaved j
    else unsaved

def unsavedAfterAll (s : Store) (unsaved : Bool) : List Step → Bool
  | [] => unsaved
  | e :: es => (s.step e).unsavedAfterAll (s.unsavedAfter unsaved e) es

/-! ### What a store offers is a run -/

theorem run_work (s : Store) (now : Moment) (n : ℕ) :
    s.run (List.replicate n (.work now)) =
      { s with channel := s.channel.steps (Memory.worker now) n } := by
  induction n generalizing s with
  | zero => rfl
  | succ n ih => exact ih (s.step (.work now))

/-- To add or to delete a note is to submit a job and to let the writer work up to it. -/
theorem write?_eq_run {s : Store} (h : s.isOpen = true) (now : Moment) (j : Job) :
    s.write? now j =
      some (s.run (.submit j :: List.replicate (s.channel.queue.length + 1) (.work now))) := by
  have hrunning : s.channel.running = true := h
  have hwork := run_work (s.submit j) now (s.channel.queue.length + 1)
  rw [write?, if_pos h]
  show _ = some ((s.submit j).run _)
  rw [hwork]
  simp [Channel.flush, submit, hrunning]

theorem exists_steps_eq_drain {σ J : Type} (w : Worker σ J) (s : σ) (queue late : List J) :
    ∃ n, (Channel.mk s queue true late).steps w n = ⟨Channel.drain w s queue, [], true, late⟩ := by
  fun_induction Channel.drain w s queue with
  | case1 s => exact ⟨0, rfl⟩
  | case2 s j r ih =>
    obtain ⟨n, hn⟩ := ih
    exact ⟨n + 1, hn⟩

/-- To wait until all jobs are done is to let the writer work as often as it takes. -/
theorem settle_eq_run {s : Store} (h : s.isOpen = true) (now : Moment) :
    ∃ n, (s.settle now).2 = s.run (List.replicate n (.work now)) := by
  obtain ⟨⟨m, queue, running, late⟩, shared⟩ := s
  obtain rfl : running = true := h
  obtain ⟨n, hn⟩ := exists_steps_eq_drain (Memory.worker now) m queue late
  refine ⟨n, ?_⟩
  rw [run_work, hn]
  rfl

/-! ### Agreement along a run -/

/-- A store on the file at `path`: all that it has and is to do is sound, and the file holds the
notes wherever success promises it. -/
structure Synced (path : Text) (unsaved : Bool) (s : Store) : Prop where
  notes : AllSound s.memory.notes
  queue : ∀ j ∈ s.channel.queue, j.Sound
  agrees : s.memory.Agrees path unsaved

theorem synced_open? {now : Moment} {path : Text} {disk : Disk} {shared : Bool} {s : Store}
    (h : open? now (some path) disk shared = .ok s) : s.Synced path false := by
  obtain ⟨m, hm, rfl⟩ := except_map_eq_ok_iff.mp h
  obtain ⟨hnotes, -, hpath, hsync⟩ := Memory.load_eq_ok hm
  refine ⟨hnotes, by rintro j ⟨⟩, hpath, fun hsuccess => ?_⟩
  have hidle : m.sync = .success := hsuccess
  rw [hsync] at hidle
  cases hidle

theorem Synced.step {s : Store} {path : Text} {unsaved : Bool} (h : s.Synced path unsaved)
    {e : Step} (he : e.Sound) : (s.step e).Synced path (s.unsavedAfter unsaved e) := by
  cases e with
  | submit j =>
    refine ⟨h.notes, fun k hk => ?_, h.agrees⟩
    rcases List.mem_append.mp hk with hk | hk
    · exact h.queue k hk
    · rw [List.mem_singleton.mp hk]
      exact he
  | work now =>
    obtain ⟨⟨m, queue, running⟩, shared⟩ := s
    unfold Store.step unsavedAfter Channel.step
    cases running with
    | false => exact h
    | true =>
      cases queue with
      | nil => exact h
      | cons j r =>
        obtain ⟨hnotes, hjobs⟩ :=
          Memory.allSound_run h.notes now (h.queue j List.mem_cons_self)
        refine ⟨hnotes, fun k hk => ?_, h.agrees.run now j⟩
        rcases List.mem_append.mp hk with hk | hk
        · exact h.queue k (List.mem_cons_of_mem j hk)
        · exact hjobs k hk

theorem Synced.run {s : Store} {path : Text} {unsaved : Bool} (h : s.Synced path unsaved)
    {steps : List Step} (hsteps : ∀ e ∈ steps, e.Sound) :
    (s.run steps).Synced path (s.unsavedAfterAll unsaved steps) := by
  induction steps generalizing s unsaved with
  | nil => exact h
  | cons e es ih =>
    exact ih (h.step (hsteps e List.mem_cons_self)) fun f hf =>
      hsteps f (List.mem_cons_of_mem e hf)

/-- If the last writing was a success and all is saved, a store that is opened on the file gets the
notes of this one, filed anew under the ids that they have. -/
theorem Synced.open? {s : Store} {path : Text} (h : s.Synced path false)
    (hsuccess : s.sync = .success) (hfinite : ∀ n ∈ s.notes, n.FiniteEmbedding)
    (hexpressible : ∀ n ∈ s.notes, n.Expressible) (now : Moment) (shared : Bool) :
    Store.open? now (some path) s.memory.disk shared =
      .ok (ofMemory ⟨Memory.filed s.notes, s.memory.disk, some path, .idle⟩ shared) := by
  have hload := Memory.load_of_holds (h.agrees.file hsuccess rfl) h.notes.values hfinite
    hexpressible now
  unfold Store.open?
  rw [hload]
  rfl

/-- A store on a file that tells of success has the notes that a store opened on this file gets,
unless a change that was given up has left notes that are not saved, two notes share an id, or a
record cannot tell a note. -/
theorem notes_open?_run {start later : Moment} {path : Text} {disk : Disk} {shared : Bool}
    {s : Store} (hopen : open? start (some path) disk shared = .ok s) {steps : List Step}
    (hsteps : ∀ e ∈ steps, e.Sound) (hsuccess : (s.run steps).sync = .success)
    (hsaved : s.unsavedAfterAll false steps = false)
    (hids : ((s.run steps).notes.map (·.id)).Nodup)
    (hfinite : ∀ n ∈ (s.run steps).notes, n.FiniteEmbedding)
    (hexpressible : ∀ n ∈ (s.run steps).notes, n.Expressible) (shared' : Bool) :
    ∃ s', open? later (some path) (s.run steps).memory.disk shared' = .ok s' ∧
      s'.notes = (s.run steps).notes := by
  have hsynced := (synced_open? hopen).run hsteps
  rw [hsaved] at hsynced
  exact ⟨_, hsynced.open? hsuccess hfinite hexpressible later shared', Memory.values_filed hids⟩

/-! ### Where success says too little -/

/-- One note is added, and then a change of it gives up. -/
def givenUp (t : Moment) : List Step :=
  [.submit (.add (.plain "a" "milk" t)), .work t,
    .submit (.change "a" [.set "title" (.str "tea"), .fail]), .work t]

/-- Two notes are added, and then one of them gets the id of the other. -/
def renamed (t : Moment) : List Step :=
  [.submit (.add (.plain "a" "milk" t)), .work t, .submit (.add (.plain "b" "tea" t)), .work t,
    .submit (.change "b" [.set "id" (.str "a")]), .work t]

theorem sound_of_mem_givenUp {t : Moment} : ∀ e ∈ givenUp t, e.Sound := by
  have hplain := Note.sound_of_ofJson (Note.ofJson_plain t "a" "milk")
  simpa [givenUp, Step.Sound, Job.Sound, Action.AllSound, Action.Sound] using hplain

theorem sound_of_mem_renamed {t : Moment} : ∀ e ∈ renamed t, e.Sound := by
  have hmilk := Note.sound_of_ofJson (Note.ofJson_plain t "a" "milk")
  have htea := Note.sound_of_ofJson (Note.ofJson_plain t "b" "tea")
  simpa [renamed, Step.Sound, Job.Sound, Action.AllSound, Action.Sound] using ⟨hmilk, htea⟩

theorem finiteEmbedding_of_none {ns : List Note} (h : ∀ n ∈ ns, n.embedding = none) :
    ∀ n ∈ ns, n.FiniteEmbedding := by
  intro n hn g hg
  rw [h n hn] at hg
  cases hg

/-- The change that comes next writes what the one that gave up has left. -/
theorem notes_open?_run_givenUp :
    let t := Moment.ofDate .first
    let s := ofMemory ⟨[], [], some "notes.json", .idle⟩ false
    let r := s.run (givenUp t ++ [.submit (.change "a" [.appendTag "hot"]), .work t])
    ∃ s', open? t (some "notes.json") r.memory.disk false = .ok s' ∧ s'.notes = r.notes := by
  intro t s r
  have hopen : open? t (some "notes.json") [] false = .ok s := rfl
  have hsteps : ∀ e ∈ givenUp t ++ [.submit (.change "a" [.appendTag "hot"]), .work t],
      e.Sound := by
    refine List.forall_mem_append.mpr ⟨sound_of_mem_givenUp, ?_⟩
    simp [Step.Sound, Job.Sound, Action.AllSound, Action.Sound]
  exact notes_open?_run hopen hsteps (by decide +kernel) (by decide +kernel) (by decide +kernel)
    (finiteEmbedding_of_none (by decide +kernel)) (by decide +kernel) false

/-- What success might be taken for: when no job is left, a store that is opened on the file gets
the notes. -/
def Promise (now : Moment) (path : Text) (s : Store) : Prop :=
  s.channel.queue = [] → s.sync = .success → (∀ n ∈ s.notes, n.FiniteEmbedding) →
    ∃ s', open? now (some path) s.memory.disk false = .ok s' ∧ s'.notes = s.notes

/-- The file of a store is the one that another store has written, and its notes, filed under their
ids, are not those of the first. -/
theorem not_promise_of_synced {t : Moment} {path : Text} {s r : Store} (h : r.Synced path false)
    (hdisk : s.memory.disk = r.memory.disk) (hqueue : s.channel.queue = [])
    (hsuccess : s.sync = .success ∧ r.sync = .success)
    (hnone : (∀ n ∈ s.notes, n.embedding = none) ∧ ∀ n ∈ r.notes, n.embedding = none)
    (hexpressible : ∀ n ∈ r.notes, n.Expressible) (hne : (Memory.filed r.notes).values ≠ s.notes) :
    ¬ Promise t path s := by
  intro hpromise
  have hload := h.open? hsuccess.2 (finiteEmbedding_of_none hnone.2) hexpressible t false
  obtain ⟨s', hs', hnotes⟩ := hpromise hqueue hsuccess.1 (finiteEmbedding_of_none hnone.1)
  rw [hdisk, hload] at hs'
  cases hs'
  exact hne hnotes

/-- The only note of a store is written as another one that a record can tell. -/
theorem not_promise_of_render_eq {t : Moment} {n m : Note}
    (hrecord : n.toRecord.render = m.toRecord.render) (hn : n.embedding = none)
    (hm : m.Sound ∧ m.embedding = none ∧ m.Expressible) (hne : m ≠ n) :
    ¬ Promise t "notes.json"
      ((ofMemory ⟨[], [], some "notes.json", .idle⟩ false).run [.submit (.add n), .work t]) := by
  intro h
  obtain ⟨hsound, hnone, hexpressible⟩ := hm
  have hfinite {k : Note} (hk : k.embedding = none) : k.FiniteEmbedding := by
    simp [Note.FiniteEmbedding, hk]
  let disk : Disk := [(["notes.json"], .file (.ofString (Memory.fileText [n])))]
  have hwrite : Disk.write "notes.json" (.ofString (Memory.fileText [n])) [] = .ok disk := rfl
  have hload := Memory.load_of_reads (Memory.holds_of_write hwrite)
    (Memory.notesOfFile_of_render_eq hrecord hsound (hfinite hnone) hexpressible t)
  obtain ⟨s', hs', hnotes⟩ := h rfl rfl (List.forall_mem_singleton.mpr (hfinite hn))
  have hopen : (Memory.load t (some "notes.json") disk).map (ofMemory · false) = .ok s' := hs'
  rw [hload] at hopen
  cases hopen
  have hsame : [m] = [n] := (Memory.values_filed (by simp)).symm.trans hnotes
  exact hne (List.singleton_inj.mp hsame)

/-- What a change that gives up has done is not in the file, two notes of one id are read from it as
one, and so are two halves of a pair; the seconds of an offset are lost, and so it is when clocks
show a time twice. -/
theorem not_promise :
    let t := Moment.ofDate .first
    let s := ofMemory ⟨[], [], some "notes.json", .idle⟩ false
    let halves := Note.plain "a" (.ofList [.half 0x3D, .half 0x600]) t
    let due (o : Offset) := (Note.plain "a" "tea" t).setMoment .dueDate { t with offset := some o }
    open? t (some "notes.json") [] false = .ok s ∧
      ¬ Promise t "notes.json" (s.run (givenUp t)) ∧
      ¬ Promise t "notes.json" (s.run (renamed t)) ∧
      ∀ n ∈ [halves, due ⟨5430000000, false, by decide⟩, due ⟨5400000000, true, by decide⟩],
        n.Validated ∧ ¬ Promise t "notes.json" (s.run [.submit (.add n), .work t]) := by
  intro t s halves due
  have hopen : open? t (some "notes.json") [] false = .ok s := rfl
  refine ⟨hopen, ?_, ?_, ?_⟩
  · -- The file is the one that was written when the note was added.
    have hadded : ∀ e ∈ (givenUp t).take 2, e.Sound := fun e he =>
      sound_of_mem_givenUp e (List.mem_of_mem_take he)
    refine not_promise_of_synced ((synced_open? hopen).run hadded) rfl rfl ?_ ?_ ?_ ?_
    all_goals decide +kernel
  · refine not_promise_of_synced ((synced_open? hopen).run sound_of_mem_renamed) rfl rfl ?_ ?_ ?_ ?_
    all_goals decide +kernel
  · let joined := Note.plain "a" (.ofList [.char (Char.ofNat 0x1F600)]) t
    let told := due ⟨5400000000, false, by decide⟩
    have hhalves : halves.Validated := .read (Note.ofJson_plain t _ _)
    have hjoined : joined.Validated := .read (Note.ofJson_plain t _ _)
    have hdue (o : Offset) : (due o).Validated :=
      (Note.Validated.read (Note.ofJson_plain t "a" "tea")).setMoment .dueDate _
    simp only [List.mem_cons, List.not_mem_nil, or_false, forall_eq_or_imp, forall_eq]
    refine ⟨⟨hhalves, ?_⟩, ⟨hdue _, ?_⟩, hdue _, ?_⟩
    · exact not_promise_of_render_eq (m := joined) (by decide +kernel) rfl
        ⟨hjoined.sound, rfl, by decide +kernel⟩ (by decide +kernel)
    all_goals
      exact not_promise_of_render_eq (m := told) (by decide +kernel) rfl
        ⟨(hdue _).sound, rfl, by decide +kernel⟩ (by decide +kernel)

end Store

end Notebook
