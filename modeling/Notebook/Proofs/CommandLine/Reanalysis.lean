import Notebook.CommandLine.Run
import Notebook.Proofs.Analysis.Commute
import Notebook.Proofs.Analysis.Saved
import Notebook.Proofs.CommandLine.Filter

/-!
# Analysis from the command line

On request the program analyzes all notes of its file and saves what it finds out.  The file then
lists the same notes in the same order, and nothing about them is another but what an analysis
finds out and the time of the last change.  The program does one job after the other; workers that
did them in any other order would leave the same notes.
-/

namespace Notebook

/-! ### One job after the other -/

/-- To wait for a single plain job is one step of the writer. -/
theorem Store.settle_of_short {s : Store} (hopen : s.isOpen = true)
    (hplain : ∀ j ∈ s.channel.queue, j.IsPlain) (hshort : s.channel.queue.length ≤ 1)
    (now : Moment) :
    (s.settle now).2 = { s with channel := s.channel.step (Memory.worker now) } := by
  obtain ⟨⟨m, queue, running⟩, shared⟩ := s
  obtain rfl : running = true := hopen
  cases queue with
  | nil => simp [settle, Channel.settle, Channel.step]
  | cons j rest =>
    obtain rfl : rest = [] := by
      rw [List.length_cons] at hshort
      exact List.eq_nil_of_length_eq_zero (by omega)
    have hnone : ((Memory.worker now).run j m).2 = [] :=
      (hplain j List.mem_cons_self).submitted now m
    simp [settle, Channel.settle, Channel.step, Channel.drain, hnone]

namespace Pipeline

theorem run_append (p : Pipeline) (ms ms' : List (Moment × Move)) :
    p.run (ms ++ ms') = (p.run ms).run ms' := List.foldl_append

/-- A job is done, and then its finding is written down. -/
theorem runAt_eq_run {p : Pipeline} (hp : p.store.Ready) (now : Moment) (i : Nat) :
    p.runAt now i = p.run [(now, .event (.perform i)), (now, .event .write)] := by
  have hrunAt : p.runAt now i = if p.pending[i]?.isSome then (p.performAt now i).settle now
      else p := by
    unfold runAt performAt
    cases p.pending[i]? <;> rfl
  have hstore : (p.performAt now i).store.isOpen = true ∧
      (p.performAt now i).store.channel.queue.length ≤ 1 ∧
      ∀ j ∈ (p.performAt now i).store.channel.queue, j.IsPlain := by
    cases hj : p.pending[i]? with
    | none =>
      rw [performAt, hj]
      simp [hp.isOpen, hp.idle]
    | some j =>
      rw [performAt_of_getElem? hj]
      cases p.finding? now j with
      | none => simp [hp.isOpen, hp.idle]
      | some f =>
        have hqueue : (p.store.change j.id f.actions).channel.queue = [.change j.id f.actions] := by
          simp [Store.change, Store.submit, hp.idle]
        simp only [Option.map_some, Option.getD_some, hqueue]
        refine ⟨hp.isOpen, le_rfl, fun k hk => ?_⟩
        rw [List.mem_singleton.mp hk]
        exact ⟨f, rfl⟩
  obtain ⟨hopen, hshort, hplain⟩ := hstore
  have hsettle := Store.settle_of_short hopen hplain hshort now
  show _ = (p.performAt now i).step now .write
  rw [hrunAt]
  split
  · rw [settle, hsettle]
    rfl
  · next hnone =>
    have hsame : p.performAt now i = p := by
      rw [Bool.not_eq_true, Option.isSome_eq_false_iff, Option.isNone_iff_eq_none] at hnone
      rw [performAt, hnone]
    rw [hsame]
    simp [step, Channel.step, hp.idle]

theorem closed_runAt (p : Pipeline) (now : Moment) (i : Nat) :
    (p.runAt now i).closed = p.closed := by
  unfold runAt
  split <;> rfl

/-- Nothing waits, and the store is open. -/
structure AtRest (p : Pipeline) : Prop where
  ready : p.store.Ready
  closed : p.closed = false
  pending : p.pending = []

/-- A note is handed in, its two jobs are done, and each result is written down at once. -/
def onNote (now : Moment) (n : Note) : List (Moment × Move) :=
  [(now, .event (.analyze n)), (now, .event (.perform 0)), (now, .event .write),
    (now, .event (.perform 0)), (now, .event .write)]

def onNotes (now : Moment) (ns : List Note) : List (Moment × Move) := ns.flatMap (onNote now)

theorem run_onNotes_cons (p : Pipeline) (now : Moment) (n : Note) (ns : List Note) :
    p.run (onNotes now (n :: ns)) = (p.run (onNote now n)).run (onNotes now ns) :=
  run_append p (onNote now n) (onNotes now ns)

theorem runAll_eq_run {p : Pipeline} (hp : p.AtRest) (now : Moment) (n : Note) :
    (p.analyze? n).map (runAll now) = some (p.run (onNote now n)) ∧
      (p.run (onNote now n)).AtRest := by
  let q : Pipeline := { p with pending := jobsOf n }
  have hq : p.analyze? n = some q := by simp [analyze?, hp.closed, hp.pending, q]
  have hfirst : (q.runAt now 0).store.Ready := (runAt_faces (p := q) hp.ready now 0).1
  have hsecond := (runAt_faces hfirst now 0).1
  have hrun : p.run (onNote now n) = (q.runAt now 0).runAt now 0 := by
    rw [runAt_eq_run hfirst, runAt_eq_run (p := q) hp.ready, ← run_append]
    show (p.step now (.analyze n)).run _ = q.run _
    rw [step, hq]
    rfl
  rw [hrun, hq]
  refine ⟨rfl, hsecond, ?_, ?_⟩
  · rw [closed_runAt, closed_runAt]
    exact hp.closed
  · rw [pending_runAt, pending_runAt]
    rfl

theorem AtRest.onNotes {p : Pipeline} (hp : p.AtRest) (now : Moment) (ns : List Note) :
    (p.run (onNotes now ns)).AtRest := by
  induction ns generalizing p with
  | nil => exact hp
  | cons n ns ih =>
    rw [run_onNotes_cons]
    exact ih (runAll_eq_run hp now n).2

/-- All notes are handed in, at some time or other, and nothing is left to do at the end.  The order
of the jobs, and the times when they are done and when their findings are written, are open, but
they are times that a clock can tell. -/
structure Course (p : Pipeline) (ns : List Note) (ms : List (Moment × Move)) : Prop where
  moves : ∀ m ∈ ms, m.2.Analyzes (ns.map (·.id))
  times : ∀ m ∈ ms, m.1.Expressible
  handedIn : ∀ n ∈ ns, ∃ t, (t, .event (.analyze n)) ∈ ms
  pending : (p.run ms).pending = []
  queue : (p.run ms).store.channel.queue = []

theorem course_onNotes {p : Pipeline} (hp : p.AtRest) {now : Moment} (hnow : now.Expressible)
    (ns : List Note) : p.Course ns (onNotes now ns) where
  moves m hm := by
    obtain ⟨n, hn, hm⟩ := List.mem_flatMap.mp hm
    simp only [onNote, List.mem_cons, List.not_mem_nil, or_false] at hm
    rcases hm with rfl | rfl | rfl | rfl | rfl
    · exact List.mem_map_of_mem hn
    all_goals trivial
  times m hm := by
    obtain ⟨n, -, hm⟩ := List.mem_flatMap.mp hm
    simp only [onNote, List.mem_cons, List.not_mem_nil, or_false] at hm
    rcases hm with rfl | rfl | rfl | rfl | rfl <;> exact hnow
  handedIn n hn := ⟨now, List.mem_flatMap.mpr ⟨n, hn, List.mem_cons_self⟩⟩
  pending := (hp.onNotes now ns).pending
  queue := (hp.onNotes now ns).ready.idle

end Pipeline

/-- To analyze all notes is to go on so with one note after the other. -/
theorem Session.analyzeAll?_eq {s : Session} (hs : s.pipeline.AtRest) (now : Moment)
    (ns : List Note) : s.analyzeAll? now ns =
      some { s with pipeline := s.pipeline.run (Pipeline.onNotes now ns) } := by
  induction ns generalizing s with
  | nil => rfl
  | cons n ns ih =>
    obtain ⟨hnote, hrest⟩ := Pipeline.runAll_eq_run hs now n
    have hanalyze : s.analyze? now n =
        some { s with pipeline := s.pipeline.run (Pipeline.onNote now n) } := by
      unfold analyze?
      cases hp : s.pipeline.analyze? n with
      | none => simp [hp] at hnote
      | some p =>
        rw [hp, Option.map_some, Option.some.injEq] at hnote
        rw [Option.map_some, hnote]
    rw [analyzeAll?, hanalyze, Option.bind_some, Pipeline.run_onNotes_cons]
    exact ih (s := { s with pipeline := s.pipeline.run (Pipeline.onNote now n) }) hrest

/-! ### Files without notes -/

namespace Memory

theorem eq_nil_of_notesOf {now : Moment} {vs : List Json} (h : notesOf now vs = .ok []) :
    vs = [] := by
  cases vs with
  | nil => rfl
  | cons v vs =>
    obtain ⟨n, -, h⟩ := except_bind_eq_ok_iff.mp h
    obtain ⟨ns, -, h⟩ := except_bind_eq_ok_iff.mp h
    cases h

/-- A file without notes has none at any time. -/
theorem notesOfFile_nil {now : Moment} {file : Text.Decoded} (h : notesOfFile now file = .ok [])
    (t : Moment) : notesOfFile t file = .ok [] := by
  rcases notesOfFile_cases file with ⟨vs, -, hvs⟩ | ⟨e, he⟩
  · rw [hvs] at h ⊢
    rw [eq_nil_of_notesOf h]
    rfl
  · rw [he] at h
    cases h

theorem Lists.of_nil {now : Moment} {disk : Disk} {path : Option Text}
    (h : Lists now disk path []) (t : Moment) : Lists t disk path [] := by
  cases h with
  | fileless => exact .fileless
  | absent hp => exact .absent hp
  | file hp hread hns => exact .file hp hread (notesOfFile_nil hns t)

end Memory

namespace CommandLine

/-! ### Options that are given -/

/-- Analysis is asked for once the command line has its option. -/
theorem analyze_request {waiting : Option Switch} {d : Draft} {ps : List Part} {a : Arguments}
    (h : request waiting d ps = .search a)
    (ho : d.arguments.flag .analyze = true ∨ .switch .analyze none ∈ ps) :
    a.flag .analyze = true := by
  induction ps generalizing waiting d with
  | nil =>
    unfold request at h
    split at h
    · cases h
    · rw [flag_finish h]
      exact ho.resolve_right List.not_mem_nil
  | cons p ps ih =>
    -- another part does not take the flag away
    cases waiting with
    | some o =>
      cases p with
      | plain value => exact ih h (by simpa [flag_setValue] using ho)
      | divider | switch | unknown | ambiguous => cases h
    | none =>
      cases p with
      | plain word => exact ih h (by simpa [arguments_addPlain] using ho)
      | divider => exact ih h (by simpa [arguments_addDivider] using ho)
      | unknown => exact ih h (by simpa using ho)
      | ambiguous => cases h
      | switch o value =>
        cases value with
        | some value =>
          simp only [request] at h
          split at h
          · exact ih h (by simpa [flag_setValue] using ho)
          · cases h
        | none =>
          cases o with
          | help => cases h
          | notesFile | wordVectors => exact ih h (by simpa using ho)
          | analyze => exact ih h (.inl rfl)
          | semantic =>
            have hother : Switch.semantic ≠ .analyze := by decide
            exact ih h (by simpa [flag_setFlag hother] using ho)

theorem analyze_parse {usual a : Arguments} {words : List Text}
    (h : parse usual words = .search a) (ho : .switch .analyze none ∈ partsOf words) :
    a.analyze = true := by
  unfold parse at h
  simp only at h
  split at h
  · cases h
  · exact analyze_request h (.inr ho)

/-! ### Analyzing a file -/

/-- Whenever the notes of the file are loaded, they are these notes in this order, except for what
an analysis finds out and the time of the last change. -/
def StillLists (disk : Disk) (path : Option Text) (ns : List Note) : Prop :=
  ∀ t, ∃ ns', Memory.Lists t disk path ns' ∧ ns'.map Note.face = ns.map Note.face

/-- What analyzes the notes that were loaded from the file. -/
def Arguments.pipeline (settings : Settings) (fractions : List Float) (disk : Disk)
    (ns : List Note) (a : Arguments) : Pipeline :=
  .new (engineOf a.wordVectors disk) (.ofMemory ⟨Memory.filed ns, disk, a.file?, .idle⟩ false)
    (.between settings.tagConfidenceMin settings.tagConfidenceMax fractions)
    settings.maxSuggestedTags

variable {settings : Settings} {clock : Clock} {fractions : List Float} {words : List Text}
  {disk : Disk} {a : Arguments} {ns : List Note} {takes : Letter → Bool}

theorem atRest_pipeline : (a.pipeline settings fractions disk ns).AtRest := ⟨⟨rfl, rfl⟩, rfl, rfl⟩

theorem load_eq_ok_of_table {path : Text} {t : WordTable}
    (h : t ∈ (engineOf path disk).table) : WordTable.load path disk = .ok t := by
  cases hload : WordTable.load path disk with
  | error e =>
    simp only [engineOf, hload] at h
    cases h
  | ok t' =>
    simp only [engineOf, hload] at h
    cases h
    rfl

theorem underway_pipeline {now : Moment} (hnow : now.Expressible) {path : Text}
    (hfile : a.file? = some path)
    (hlists : Memory.Lists now disk (some path) ns)
    (hwritable : ∃ ps, disk.writable path = .ok ps) :
    (a.pipeline settings fractions disk ns).Underway path (Memory.filed ns) where
  memory :=
    { file := hfile
      writable := hwritable
      faces_eq := rfl
      sound := (Memory.load_eq_ok (Memory.load_eq_ok_iff.mpr ⟨ns, hlists, rfl⟩)).1
      expressible := List.forall_mem_map.mpr fun p hp => by
        obtain ⟨n, hn, rfl⟩ := List.mem_map.mp (Keyed.mem_of_mem_ofPairs hp)
        exact hlists.expressible hnow n hn }
  isOpen := rfl
  closed := rfl
  queue _ hj := (List.not_mem_nil hj).elim
  pending _ hj := (List.not_mem_nil hj).elim
  source := trivial
  tables _ ht := WordTable.even_of_load (load_eq_ok_of_table ht)

theorem stillLists_of_course {now : Moment} (hnow : now.Expressible)
    (hlists : Memory.Lists now disk a.file? ns)
    (hids : (ns.map (·.id)).Nodup)
    (hwritable : ∀ path ∈ a.file?, ∃ ps, disk.writable path = .ok ps)
    {ms : List (Moment × Pipeline.Move)}
    (hms : (a.pipeline settings fractions disk ns).Course ns ms) :
    StillLists ((a.pipeline settings fractions disk ns).run ms).store.memory.disk a.file? ns := by
  cases hns : ns with
  | nil =>
    subst hns
    rw [Pipeline.run_of_no_ids rfl rfl hms.moves]
    exact fun t => ⟨[], hlists.of_nil t, rfl⟩
  | cons n rest =>
    rw [← hns]
    have hn : n ∈ ns := hns ▸ List.mem_cons_self
    obtain ⟨path, hfile⟩ : ∃ path, a.file? = some path := by
      cases hfile : a.file? with
      | none =>
        rw [hfile] at hlists
        cases hlists
        cases hns
      | some path => exact ⟨path, rfl⟩
    have hkeys : (Memory.filed ns).keys = ns.map (·.id) := by
      rw [← (filed_filed ns).map_id, Memory.values_filed hids]
    have hstart : (a.pipeline settings fractions disk ns).Underway path (Memory.filed ns) :=
      underway_pipeline hnow hfile (hfile ▸ hlists) (hwritable path hfile)
    have hmoves : ∀ m ∈ ms, m.2.Analyzes (Memory.filed ns).keys := hkeys ▸ hms.moves
    obtain ⟨t, ht⟩ := hms.handedIn n hn
    have hholds := (Pipeline.saves_run hstart hmoves hms.times ht).holds hms.pending hms.queue
    intro t
    obtain ⟨ns', hlists', hfaces⟩ := (hstart.run hmoves hms.times).memory.lists hholds t
    rw [Memory.values_filed hids] at hfaces
    exact ⟨ns', hfile ▸ hlists', hfaces⟩

theorem disk_searchFile (ha : a.analyze = true) (hlists : Memory.Lists clock.wall disk a.file? ns)
    (hids : (ns.map (·.id)).Nodup) :
    (searchFile settings clock fractions takes a disk).disk =
      ((a.pipeline settings fractions disk ns).run
        (Pipeline.onNotes clock.wall ns)).store.memory.disk := by
  let store := Store.ofMemory ⟨Memory.filed ns, disk, a.file?, .idle⟩ false
  have hopen : Store.open? clock.wall a.file? disk false = .ok store :=
    Store.open?_eq_ok_iff.mpr ⟨ns, hlists, rfl⟩
  let session := Session.new { settings with semanticSearchEnabled := a.semantic } store
    (engineOf a.wordVectors disk) fractions
  have hnotes : store.notes = ns := Memory.values_filed hids
  have hanalyzed : session.analyzeAll? clock.wall ns =
      some { session with
        pipeline := session.pipeline.run (Pipeline.onNotes clock.wall ns) } :=
    Session.analyzeAll?_eq (s := session) atRest_pipeline clock.wall ns
  simp only [searchFile, hopen, ha, if_true, hnotes]
  rw [hanalyzed, Option.getD_some]
  -- the search that follows leaves the store as it is
  split
  · next hsearch => exact (congrArg (fun r => r.2.store.memory.disk) hsearch).symm
  · next hsearch => exact (congrArg (fun r => r.2.store.memory.disk) hsearch).symm

/-- On request the notes of the file are analyzed.  If the file can be read and written and no id
comes twice in it, it still lists the notes afterwards, whatever else goes wrong; and so it would if
workers and the writer went about the same work in any other way. -/
theorem run_analyze_stillLists (fractions : List Float) (takes : Letter → Bool)
    (hparse : parse (usual settings) words = .search a)
    (hanalyze : .switch .analyze none ∈ partsOf words)
    (hlists : Memory.Lists clock.wall disk a.file? ns) (hids : (ns.map (·.id)).Nodup)
    (hwritable : ∀ path ∈ a.file?, ∃ ps, disk.writable path = .ok ps) :
    let after := (run settings clock fractions takes words disk).disk
    let start := a.pipeline settings fractions disk ns
    StillLists after a.file? ns ∧
      (∃ ms, start.Course ns ms ∧ after = (start.run ms).store.memory.disk) ∧
      ∀ ms, start.Course ns ms → StillLists (start.run ms).store.memory.disk a.file? ns := by
  intro after start
  have hcourse : start.Course ns (Pipeline.onNotes clock.wall ns) :=
    Pipeline.course_onNotes atRest_pipeline clock.expressible ns
  have hafter : after = (start.run (Pipeline.onNotes clock.wall ns)).store.memory.disk := by
    simp only [after, run, hparse]
    exact disk_searchFile (analyze_parse hparse hanalyze) hlists hids
  have hall : ∀ ms, start.Course ns ms →
      StillLists (start.run ms).store.memory.disk a.file? ns :=
    fun _ hms => stillLists_of_course clock.expressible hlists hids hwritable hms
  exact ⟨hafter ▸ hall _ hcourse, ⟨_, hcourse, hafter⟩, hall⟩

/-- Of two notes only one has a word of the table, and the first analysis finds out its tag. -/
theorem run_analyze_stillLists_two :
    let t := Moment.ofDate .first
    let clock : Clock := ⟨t, 1000.0, by decide⟩
    let ns := [Note.plain "a" "Milk" t, { Note.plain "b" "tea" t with tags := ["home"] }]
    let table : Disk := [(["v.txt"], .file (.ofString "milk 1 0.5\n"))]
    let file : Disk := [(["n.json"], .file (.ofString (Memory.fileText ns)))]
    let disk : Disk := table ++ file
    let a : Arguments := ⟨"milk", "n.json", "v.txt", true, false⟩
    let words : List Text := ["milk", "--analyze", "--notes-file=n.json", "--word-vectors", "v.txt"]
    let after := (run .default clock [] (fun _ => true) words disk).disk
    let start := a.pipeline .default [] disk ns
    parse (usual .default) words = .search a ∧ .switch .analyze none ∈ partsOf words ∧
      Memory.Lists clock.wall disk a.file? ns ∧ (ns.map (·.id)).Nodup ∧
      (∀ path ∈ a.file?, ∃ ps, disk.writable path = .ok ps) ∧
      StillLists after a.file? ns ∧
      (start.run (Pipeline.onNotes t ns)).store.notes.map (·.suggestedTags) =
        [(["Milk"] : List Text), []] := by
  intro t clock ns table file disk a words after start
  have hparse : parse (usual .default) words = .search a := by decide +kernel
  have hanalyze : .switch .analyze none ∈ partsOf words := by decide +kernel
  have hread : ∀ n ∈ ns, ∃ v, Note.ofJson t v = .ok n := by
    simp only [ns, List.mem_cons, List.not_mem_nil, or_false, forall_eq_or_imp, forall_eq]
    exact ⟨⟨_, Note.ofJson_plain t "a" "Milk"⟩,
      ⟨.obj [("id", .str "b"), ("title", .str "tea"), ("tags", .strings ["home"])], rfl⟩⟩
  have hsound : ∀ n ∈ ns, n.Sound := fun n hn =>
    have ⟨_, hv⟩ := hread n hn
    (Note.Validated.read hv).sound
  have hfinite : ∀ n ∈ ns, n.FiniteEmbedding := by simp [ns, Note.FiniteEmbedding, Note.plain]
  have hexpressible : ∀ n ∈ ns, n.Expressible := by decide +kernel
  have hholds : Memory.Holds disk "n.json" ns := @Memory.holds_of_write ns "n.json" table disk rfl
  have hlists : Memory.Lists clock.wall disk a.file? ns :=
    .file hholds.exists_file hholds.text
      (Memory.notesOfFile_fileText hsound hfinite hexpressible t)
  have hids : (ns.map (·.id)).Nodup := by decide
  have hwritable : ∀ path ∈ a.file?, ∃ ps, disk.writable path = .ok ps := by
    rintro path ⟨⟩
    have hthere : table.writable "n.json" = .ok ["n.json"] := rfl
    exact ⟨["n.json"], Disk.writable_set hthere⟩
  exact ⟨hparse, hanalyze, hlists, hids, hwritable,
    (run_analyze_stillLists [] _ hparse hanalyze hlists hids hwritable).1, by decide +kernel⟩

end CommandLine

end Notebook
