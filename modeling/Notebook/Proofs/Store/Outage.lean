import Notebook.Proofs.Store.Attempt
import Notebook.Proofs.Store.Fileless

/-!
# While the disk comes and goes

Directories may appear and disappear while a store is at work, so that one writing fails and the
next one comes through.  The notes in memory do not depend on it.  The store tells how the last
writing went, and a writing that comes through leaves all notes in the file, also those whose own
writing has failed.  All this is so if the file has a path; a text that can be none is another
matter.
-/

namespace Notebook

/-! ### Stores and disks -/

/-- What may happen around a store. -/
inductive Incident
  /-- To the store: somebody calls, or the writer takes its next step. -/
  | event (e : Traffic.Event)
  /-- To the disk: a directory is made or removed, or anything else. -/
  | disk (change : Disk → Disk)

namespace Traffic

/-- The disk has become another one. -/
def onDisk (change : Disk → Disk) (s : Traffic) : Traffic :=
  { s with
    writer := match s.writer with
      | .idle m => .idle { m with disk := change m.disk }
      | .busy t start c left =>
        .busy t start { c with memory := { c.memory with disk := change c.memory.disk } } left }

def meet (s : Traffic) : Incident → Traffic
  | .event e => s.step e
  | .disk change => s.onDisk change

def meetAll (s : Traffic) (is : List Incident) : Traffic := is.foldl meet s

/-- What happens to the store alone. -/
def events (is : List Incident) : List Event :=
  is.filterMap fun i => match i with
    | .event e => some e
    | .disk _ => none

theorem meetAll_concat (s : Traffic) (is : List Incident) (i : Incident) :
    s.meetAll (is ++ [i]) = (s.meetAll is).meet i := by simp [meetAll]

/-! ### Memory does not depend on the disk -/

theorem bare_onDisk (change : Disk → Disk) (s : Traffic) : (s.onDisk change).bare = s.bare := by
  unfold onDisk bare
  cases s.writer <;> rfl

theorem memory_onDisk (change : Disk → Disk) (s : Traffic) :
    (s.onDisk change).memory = { s.memory with disk := change s.memory.disk } := by
  unfold onDisk memory
  cases s.writer <;> rfl

theorem path_meetAll (s : Traffic) (is : List Incident) :
    (s.meetAll is).memory.path = s.memory.path := by
  induction is using List.reverseRecOn with
  | nil => rfl
  | append_singleton is i ih =>
    rw [meetAll_concat, ← ih]
    cases i with
    | event e => exact (goes_step _ e).path
    | disk change =>
      show ((s.meetAll is).onDisk change).memory.path = _
      rw [memory_onDisk]

/-- What happens to the disk leaves no trace in the notes. -/
theorem bare_meetAll {s : Traffic} (h : s.memory.OnPath) (is : List Incident) :
    (s.meetAll is).bare = s.bare.run (events is) := by
  induction is using List.reverseRecOn with
  | nil => rfl
  | append_singleton is i ih =>
    have hbefore : (s.meetAll is).memory.OnPath := fun path hpath =>
      h path ((path_meetAll s is).symm.trans hpath)
    rw [meetAll_concat, events, List.filterMap_append]
    cases i with
    | event e =>
      show _ = s.bare.run (events is ++ [e])
      rw [run_concat, ← ih, step_bare hbefore]
      rfl
    | disk change =>
      show _ = s.bare.run (events is ++ [])
      rw [List.append_nil, ← ih]
      exact bare_onDisk change _

/-- With the same notes at the beginning and the same events, stores have the same notes. -/
theorem notes_meetAll {m m' : Memory} (hm : m.OnPath) (hm' : m'.OnPath)
    (h : m.notes = m'.notes) (is : List Incident) :
    ((new m).meetAll is).memory.notes = ((new m').run (events is)).memory.notes := by
  have hbare : (new m).bare = (new m').bare := by
    show new m.bare = new m'.bare
    unfold Memory.bare
    rw [h]
  have hnotes (s : Traffic) : s.bare.memory.notes = s.memory.notes := by
    rw [memory_bare]
    rfl
  have hrun : (new m').meetAll ((events is).map .event) = (new m').run (events is) :=
    List.foldl_map
  have hevents : events ((events is).map .event) = events is := by
    simp [events, List.filterMap_map]
  have hagain : ((new m').run (events is)).bare = (new m').bare.run (events is) := by
    rw [← hrun, bare_meetAll (s := new m') hm', hevents]
  rw [← hnotes, bare_meetAll (s := new m) hm, hbare, ← hagain, hnotes]

/-! ### All writings of a run -/

def attemptsOf (s : Traffic) : Incident → List Memory
  | .event e => (s.attemptAt? e).toList
  | .disk _ => []

/-- All that the writer tries to write, in order. -/
def attempts (s : Traffic) : List Incident → List Memory
  | [] => []
  | i :: is => s.attemptsOf i ++ (s.meet i).attempts is

theorem attempts_concat (s : Traffic) (is : List Incident) (i : Incident) :
    s.attempts (is ++ [i]) = s.attempts is ++ (s.meetAll is).attemptsOf i := by
  induction is generalizing s with
  | nil => simp [attempts, meetAll]
  | cons i' is ih =>
    rw [List.cons_append, attempts, attempts, ih, List.append_assoc]
    rfl

end Traffic

namespace Memory

/-- What a store tells after some writings. -/
def told (path : Text) (ms : List Memory) : SyncStatus :=
  (ms.getLast?.map (·.outcome path)).getD .idle

theorem Goes.told {m m' : Memory} {attempt : Option Memory} (h : m.Goes attempt m')
    {path : Text} (hpath : m.path = some path) {ms : List Memory}
    (hsync : m.sync = Memory.told path ms) :
    m'.path = some path ∧ m'.sync = Memory.told path (ms ++ attempt.toList) := by
  cases h with
  | quiet notes => exact ⟨hpath, by simpa using hsync⟩
  | tried notes =>
    have hpath' : ({ m with notes := notes } : Memory).path = some path := hpath
    rw [persist_of_path hpath']
    exact ⟨hpath, by simp [Memory.told]⟩

end Memory

namespace Traffic

/-- The store tells of the last writing, whatever has happened to the disk. -/
theorem told_meetAll {s : Traffic} {path : Text} (hpath : s.memory.path = some path)
    (hsync : s.memory.sync = .idle) (is : List Incident) :
    (s.meetAll is).memory.path = some path ∧
      (s.meetAll is).memory.sync = Memory.told path (s.attempts is) := by
  induction is using List.reverseRecOn with
  | nil => exact ⟨hpath, hsync⟩
  | append_singleton is i ih =>
    obtain ⟨hpath', hsync'⟩ := ih
    rw [meetAll_concat, attempts_concat]
    cases i with
    | event e => exact (goes_step _ e).told hpath' hsync'
    | disk change =>
      show ((s.meetAll is).onDisk change).memory.path = _ ∧
        ((s.meetAll is).onDisk change).memory.sync = Memory.told path (s.attempts is ++ [])
      rw [memory_onDisk, List.append_nil]
      exact ⟨hpath', hsync'⟩

/-- As long as nothing happens to the disk, every writing comes through. -/
theorem exists_save_of_mem_attempts {s : Traffic} {path : Text} (h : s.memory.CanWrite path)
    (es : List Event) :
    ∀ m ∈ s.attempts (es.map .event), ∃ disk, m.save path = .ok disk := by
  induction es generalizing s with
  | nil => simp [attempts]
  | cons e es ih =>
    obtain ⟨hstep, hattempt⟩ := (goes_step s e).canWrite h
    intro m hm
    rcases List.mem_append.mp hm with hm | hm
    · exact hattempt m hm
    · exact ih hstep m hm

/-! ### Failures of the disk -/

/-- While directories come and go, the notes of a store are those that it would have if every
writing came through, here by the side of a store `good` that has just this luck.  The store tells
nothing as long as no writing was tried, and then how the last one went; and after one that came
through the file holds all notes that there are.  Only the failures of disks are meant: the path is
one. -/
theorem failures_absorbed {start : Moment} {path : Text} {disk : Disk} {shared : Bool}
    {s : Store} (hopen : Store.open? start (some path) disk shared = .ok s)
    (hpath : Disk.isPath path = true) {good : Memory} {path' : Text} (hgood : good.CanWrite path')
    (hnotes : good.notes = s.memory.notes) (is : List Incident) :
    let t := (new s.memory).meetAll is
    let ms := (new s.memory).attempts is
    ((∀ m ∈ (new good).attempts ((events is).map .event), ∃ d, m.save path' = .ok d) ∧
        t.memory.notes = ((new good).run (events is)).memory.notes) ∧
      (ms = [] → t.memory.sync = .idle) ∧
      (∀ m, ms.getLast? = some m →
        (∃ d, m.save path = .ok d ∧ t.memory.sync = .success) ∨
          ∃ e, m.save path = .error e ∧ e.reason.isSystems = true ∧
            t.memory.sync = .error e.message) ∧
      ∀ now m d, t.attempt? = some m → m.save path = .ok d →
        (t.work now).memory = { m with disk := d, sync := .success } ∧
          Memory.Holds d path m.notes.values := by
  intro t ms
  obtain ⟨m₀, hload, rfl⟩ := except_map_eq_ok_iff.mp hopen
  obtain ⟨-, -, hpath₀, hsync₀⟩ := Memory.load_eq_ok hload
  have honPath : m₀.OnPath := by
    intro path' hpath'
    rwa [Option.some.inj (hpath'.symm.trans hpath₀)]
  obtain ⟨hown, hsync⟩ : t.memory.path = some path ∧ t.memory.sync = Memory.told path ms :=
    told_meetAll (s := new m₀) hpath₀ hsync₀ is
  refine ⟨⟨exists_save_of_mem_attempts hgood _,
    notes_meetAll honPath hgood.onPath hnotes.symm is⟩, fun hnone => ?_,
    fun m hm => ?_, fun now m d hm hd => ?_⟩
  · rw [hsync, hnone]
    rfl
  · have htold : t.memory.sync = m.outcome path := by
      rw [hsync, Memory.told, hm]
      rfl
    cases hsave : m.save path with
    | ok d => exact .inl ⟨d, rfl, by rw [htold, Memory.outcome, hsave]⟩
    | error e =>
      have hsystems : e.reason.isSystems = true := (Memory.isSystems_of_save hsave).trans hpath
      exact .inr ⟨e, rfl, hsystems, by
        rw [htold, Memory.outcome, hsave]
        exact if_pos hsystems⟩
  · have hgoes := goes_work now t
    rw [hm] at hgoes
    obtain ⟨hwork, hown'⟩ := hgoes.of_attempt
    refine ⟨?_, Memory.holds_of_write hd⟩
    rw [hwork, Memory.persist_of_path (hown'.trans hown), Memory.diskAfter, Memory.outcome, hd]

/-- The directory is not there when a note is added.  It comes, goes in the middle of a change that
adds another note, and comes again before that note is deleted. -/
def outages (t : Moment) : List Incident :=
  [.event (.call 0 (.add (.plain "a" "milk" t))), .event (.work t),
    .disk (Disk.makeDirectory "sub"),
    .event (.call 1 (.change "a" [.add (.obj [("id", .str "b")]), .appendTag "hot"])),
    .event (.work t), .event (.work t), .disk (Disk.remove "sub"), .event (.work t),
    .event (.work t), .event (.call 1 (.delete "c")), .event (.work t),
    .disk (Disk.makeDirectory "sub"), .event (.call 2 (.delete "b"))]

theorem failures_absorbed_outages :
    let start := Moment.ofDate .first
    let path : Text := "sub/notes.json"
    let failed := SyncStatus.error "[Errno 2] No such file or directory: 'sub/notes.json'"
    let s := Store.ofMemory ⟨[], [], some path, .idle⟩ false
    let good : Memory := ⟨[], [], some "notes.json", .idle⟩
    let t := (new s.memory).meetAll (outages start)
    let ms := (new s.memory).attempts (outages start)
    Store.open? start (some path) [] false = .ok s ∧ Disk.isPath path = true ∧
      good.CanWrite "notes.json" ∧ good.notes = s.memory.notes ∧
      ms.map (·.outcome path) = [failed, .success, failed] ∧
      t.memory.notes = ((new good).run (events (outages start))).memory.notes ∧
      t.memory.sync = failed ∧
      ∃ m d, t.attempt? = some m ∧ m.notes.keys = [("a" : Text)] ∧
        (t.work start).memory = { m with disk := d, sync := .success } ∧
        Memory.Holds d path m.notes.values := by
  intro start path failed s good t ms
  have hholds : Disk.holds path [] = .ok false := by decide +kernel
  have hopen : Store.open? start (some path) [] false = .ok s := by
    rw [Store.open?, Memory.load]
    simp only [hholds]
    rfl
  have hpath : Disk.isPath path = true := by decide
  have hgood : good.CanWrite "notes.json" := ⟨rfl, ["notes.json"], rfl⟩
  obtain ⟨⟨-, hnotes⟩, -, -, hwritten⟩ :=
    failures_absorbed hopen hpath hgood rfl (outages start)
  have houtcomes : ms.map (·.outcome path) = [failed, .success, failed] := by decide +kernel
  have hsync : t.memory.sync = failed := by decide +kernel
  have hnext : t.attempt?.map (fun m => (m.notes.keys, m.outcome path)) =
      some ((["a"] : List Text), SyncStatus.success) := by decide +kernel
  obtain ⟨m, hm, hpair⟩ := Option.map_eq_some_iff.mp hnext
  obtain ⟨hkeys, houtcome⟩ := Prod.mk.inj hpair
  cases hsave : m.save path with
  | ok d =>
    obtain ⟨hwork, hholds⟩ := hwritten start m d hm hsave
    exact ⟨hopen, hpath, hgood, rfl, houtcomes, hnotes, hsync, m, d, hm, hkeys, hwork, hholds⟩
  | error e =>
    have herror : SyncStatus.ofError e = .success := by simpa [Memory.outcome, hsave] using houtcome
    exact absurd herror (SyncStatus.ofError_ne_success e)

/-- On a path that is none, with a zero character or the half of a pair in it, a note is added to
memory, and the store seems to be writing for ever; a change that adds a note ends there, with the
rest of it undone. -/
theorem failures_not_absorbed :
    let start := Moment.ofDate .first
    let good : Memory := ⟨[], [], some "notes.json", .idle⟩
    let es := [.call 0 (.add (.plain "a" "milk" start)), .work start, .goOn 0,
      .call 0 (.change "a" [.add (.obj [("id", .str "b")]), .appendTag "hot"]), .work start,
      .work start, .work start, .work start]
    let r := (new good).run es
    good.CanWrite "notes.json" ∧ r.atHand.length = 0 ∧
      r.memory.notes.values.map (·.tags) = [(["hot"] : List Text), []] ∧
      ∀ path ∈ [("\x00" : Text), .ofList [.half 0]],
        let s := Store.ofMemory ⟨[], [], some path, .idle⟩ false
        let t := (new s.memory).run es
        Store.open? start (some path) [] false = .ok s ∧ t.queue.length = 0 ∧
          t.atHand.length = 0 ∧ t.memory.sync = .syncing ∧
          t.memory.notes.values.map (·.tags) = [[], []] := by
  intro start good es r
  have hgood : good.CanWrite "notes.json" := ⟨rfl, ["notes.json"], rfl⟩
  refine ⟨hgood, by decide +kernel, by decide +kernel, fun path hpath => ?_⟩
  have hholds : Disk.holds path [] = .ok false := by
    revert path
    decide +kernel
  have hopen : Store.open? start (some path) [] false =
      .ok (Store.ofMemory ⟨[], [], some path, .idle⟩ false) := by
    rw [Store.open?, Memory.load]
    simp only [hholds]
    rfl
  simp only [List.mem_cons, List.not_mem_nil, or_false] at hpath
  refine ⟨hopen, ?_⟩
  rcases hpath with rfl | rfl
  all_goals exact ⟨by decide +kernel, by decide +kernel, by decide +kernel, by decide +kernel⟩

end Traffic

end Notebook
