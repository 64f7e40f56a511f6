import Notebook.CommandLine.Run
import Notebook.Proofs.Search.Reordered
import Notebook.Proofs.Store.Loaded
import Notebook.Proofs.Store.Reload

/-!
# The command line as a filter

Run without an option, the program is a filter on the notes of its file: it writes a line for each
note that the query finds, in the order of the file, and changes nothing on the disk.  It fails if
the lines have a letter that cannot be written.
-/

namespace Notebook

/-! ### What a query finds -/

/-- Does a query find a note?  A blank one finds all notes that are not hidden, and one of invalid
words none. -/
def Query.finds (q : Text) (now : Moment) (n : Note) : Bool :=
  if Text.words q = [] then n.isSearchable
  else if (tokens q).all Token.isInvalid then false
  else (parse q).descriptor.accepts now n

namespace Searcher

variable {α : Type} (note : α → Note)

/-- While nothing is remembered and meaning is not asked for, a search is a filter. -/
theorem search_eq_filter {s : Searcher} (hempty : s.cache.entries = [])
    (hmode : s.semanticMode = false) {q : Text}
    (hsemantic : ∀ term, .semantic term ∉ Query.tokens q) (clock : Clock) {items : List α}
    (hids : (items.map fun a => (note a).id).Nodup) :
    (s.search note clock q items).1 =
      .ok (items.filter fun a => Query.finds q clock.wall (note a)) := by
  unfold Query.finds
  by_cases hblank : Text.words q = []
  · rw [search, route_of_blank hblank]
    simp only [hblank, if_true]
  by_cases hinvalid : ∀ t ∈ Query.tokens q, t.isInvalid = true
  · rw [search, route_of_invalid hblank hinvalid]
    have hall : (Query.tokens q).all Token.isInvalid = true := List.all_eq_true.mpr hinvalid
    simp only [hblank, hall, if_true, if_false, List.filter_false]
  · have hall : ¬ (Query.tokens q).all Token.isInvalid = true := by rwa [List.all_eq_true]
    have hroute : route s.semanticMode q = .words (Query.parse q).descriptor := by
      rw [hmode, route_of_valid hblank hinvalid]
      exact routeOf_words hsemantic
    rw [search_of_words hempty hroute, filterMap_acceptedIds note hids]
    simp only [hblank, hall, if_false, Bool.false_eq_true]

end Searcher

namespace CommandLine

/-! ### Options that are not given -/

/-- Is an option without a value set? -/
def Arguments.flag (a : Arguments) : Switch → Bool
  | .analyze => a.analyze
  | .semantic => a.semantic
  | _ => false

theorem flag_setValue (o o' : Switch) (value : Text) (d : Draft) :
    (d.setValue o' value).arguments.flag o = d.arguments.flag o := by
  cases o' <;> cases o <;> rfl

theorem flag_setFlag {o o' : Switch} (hne : o' ≠ o) (d : Draft) :
    (d.setFlag o').arguments.flag o = d.arguments.flag o := by
  cases o' <;> cases o <;> first | rfl | exact absurd rfl hne

theorem arguments_addPlain (word : Text) (d : Draft) :
    (d.addPlain word).arguments = d.arguments := by
  unfold Draft.addPlain
  split <;> rfl

theorem arguments_addDivider (d : Draft) : d.addDivider.arguments = d.arguments := by
  unfold Draft.addDivider
  split <;> rfl

theorem flag_finish {o : Switch} {d : Draft} {a : Arguments} (h : d.finish = .search a) :
    a.flag o = d.arguments.flag o := by
  unfold Draft.finish at h
  split at h
  · split at h
    · cases h
    · cases h
      cases o <;> rfl
  · cases h

/-- An option that the command line does not have is as it is when none is given. -/
theorem flag_request {o : Switch} {waiting : Option Switch} {d : Draft} {ps : List Part}
    {a : Arguments} (h : request waiting d ps = .search a) (ho : .switch o none ∉ ps) :
    a.flag o = d.arguments.flag o := by
  induction ps generalizing waiting d with
  | nil =>
    unfold request at h
    split at h
    · cases h
    · exact flag_finish h
  | cons p ps ih =>
    -- only `setFlag` changes a flag, and only that of its own option
    obtain ⟨hp, hps⟩ := not_or.mp fun hor => ho (List.mem_cons.mpr hor)
    cases waiting with
    | some o' =>
      cases p with
      | plain value => exact (ih h hps).trans (flag_setValue o o' value d)
      | divider | switch | unknown | ambiguous => cases h
    | none =>
      cases p with
      | plain word => rw [ih h hps, arguments_addPlain]
      | divider => rw [ih h hps, arguments_addDivider]
      | unknown => exact (ih h hps).trans rfl
      | ambiguous => cases h
      | switch o' value =>
        cases value with
        | some value =>
          simp only [request] at h
          split at h
          · rw [ih h hps, flag_setValue]
          · cases h
        | none =>
          have hne : o' ≠ o := by
            rintro rfl
            exact hp rfl
          simp only [request] at h
          split at h
          · exact ih h hps
          · split at h
            · cases h
            · rw [ih h hps, flag_setFlag hne]

theorem flag_parse {o : Switch} {usual a : Arguments} {words : List Text}
    (h : parse usual words = .search a) (ho : .switch o none ∉ partsOf words) :
    a.flag o = usual.flag o := by
  unfold parse at h
  simp only at h
  split at h
  · cases h
  · exact flag_request h ho

/-! ### Lines that can be written -/

section Report

variable {takes : Letter → Bool} {ns : List Note} {disk : Disk}

/-- All went well if all lines could be written, and only then. -/
theorem exitCode_report_eq_zero_iff :
    (report takes ns disk).exitCode = 0 ↔ ∀ n ∈ ns, ∀ l ∈ (line n).toList, takes l = true := by
  let written := ns.takeWhile fun n => (line n).toList.all takes
  have hall : written.length = ns.length ↔ ∀ n ∈ ns, ∀ l ∈ (line n).toList, takes l = true := by
    have hself : written.length = ns.length ↔ written = ns :=
      ⟨(List.takeWhile_prefix _).eq_of_length, congrArg List.length⟩
    rw [hself, List.takeWhile_eq_self_iff]
    simp only [List.all_eq_true]
  rw [← hall]
  show (if (if written.length = ns.length then none else some Failure.unprintable).isSome then
    1 else 0 : UInt32) = 0 ↔ _
  by_cases h : written.length = ns.length <;> simp [h]

theorem output_report (h : ∀ n ∈ ns, ∀ l ∈ (line n).toList, takes l = true) :
    (report takes ns disk).output = lines ns := by
  have hself : (ns.takeWhile fun n => (line n).toList.all takes) = ns :=
    List.takeWhile_eq_self_iff.mpr fun n hn => List.all_eq_true.mpr (h n hn)
  show lines (ns.takeWhile fun n => (line n).toList.all takes) = _
  rw [hself]

end Report

/-! ### A search of a file -/

variable {settings : Settings} {clock : Clock} {words : List Text} {disk : Disk} {a : Arguments}

/-- Whatever the search needs of the disk it reads, and what is found are the notes that are listed,
as they were. -/
theorem searchFile_eq_filter (settings : Settings) (fractions : List Float) (takes : Letter → Bool)
    (hanalyze : a.analyze = false) (hsemantic : a.semantic = false)
    (hterms : ∀ term, .semantic term ∉ Query.tokens a.query) {ns : List Note}
    (hlists : Memory.Lists clock.wall disk a.file? ns) :
    searchFile settings clock fractions takes a disk =
      report takes ((Memory.latest ns).filter (Query.finds a.query clock.wall)) disk := by
  let store := Store.ofMemory ⟨Memory.filed ns, disk, a.file?, .idle⟩ false
  have hopen : Store.open? clock.wall a.file? disk false = .ok store :=
    Store.open?_eq_ok_iff.mpr ⟨ns, hlists, rfl⟩
  let session := Session.new { settings with semanticSearchEnabled := a.semantic } store
    (engineOf a.wordVectors disk) fractions
  have hnotes : session.store.notes = Memory.latest ns := Memory.values_filed_eq_latest ns
  have hfound : (session.search clock a.query none).1 =
      .ok ((Memory.latest ns).filter (Query.finds a.query clock.wall)) := by
    rw [← hnotes]
    exact Searcher.search_eq_filter id rfl hsemantic hterms clock (filed_filed ns).nodup_ids
  have hsearch : session.search clock a.query none =
      (.ok ((Memory.latest ns).filter (Query.finds a.query clock.wall)),
        (session.search clock a.query none).2) := Prod.ext hfound rfl
  have hdisk : (session.search clock a.query none).2.store.memory.disk = disk := rfl
  simp only [searchFile, hopen, hanalyze, Bool.false_eq_true, if_false]
  rw [hsearch]
  simp only [hdisk]

/-- A command line with a query and neither of the two flags, where the settings do not ask for
meaning either: the lines of the notes that the query finds are written, and nothing else.  The run
fails if a line cannot be written, and only then. -/
theorem run_eq_filter (fractions : List Float) (takes : Letter → Bool)
    (hoff : settings.semanticSearchEnabled = false)
    (hparse : parse (usual settings) words = .search a)
    (hanalyze : .switch .analyze none ∉ partsOf words)
    (hsemantic : .switch .semantic none ∉ partsOf words)
    (hterms : ∀ term, .semantic term ∉ Query.tokens a.query) {ns : List Note}
    (hlists : Memory.Lists clock.wall disk a.file? ns) :
    let o := run settings clock fractions takes words disk
    let found := (Memory.latest ns).filter (Query.finds a.query clock.wall)
    o.disk = disk ∧
      (o.exitCode = 0 ↔ ∀ n ∈ found, ∀ l ∈ (line n).toList, takes l = true) ∧
      (o.exitCode = 0 → o.output = lines found) := by
  intro o found
  have ha : a.analyze = false := flag_parse hparse hanalyze
  have hs : a.semantic = false := (flag_parse hparse hsemantic).trans hoff
  have ho : o = report takes found disk := by
    simp only [o, run, hparse]
    exact searchFile_eq_filter settings fractions takes ha hs hterms hlists
  rw [ho]
  exact ⟨rfl, exitCode_report_eq_zero_iff,
    fun h => output_report (exitCode_report_eq_zero_iff.mp h)⟩

/-- The file has two notes of one id, and there is no word table.  Only characters can be
written. -/
theorem run_eq_filter_repeated :
    let t := Moment.ofDate .first
    let clock : Clock := ⟨t, 1000.0, by decide⟩
    let ns := [Note.plain "a" "milk" t, { Note.plain "b" "Milk" t with tags := ["home", "now"] },
      Note.plain "c" "tea" t, Note.plain "a" "oat milk" t]
    let disk : Disk := [(["n.json"], .file (.ofString (Memory.fileText ns)))]
    let a : Arguments := ⟨"milk", "n.json", "v.txt", false, false⟩
    let words : List Text := ["milk", "--notes-file=n.json", "--word-vectors", "v.txt"]
    let takes : Letter → Bool := fun l => !l.isHigh && !l.isLow
    let o := run .default clock [] takes words disk
    let found := (Memory.latest ns).filter (Query.finds a.query clock.wall)
    Settings.default.semanticSearchEnabled = false ∧ parse (usual .default) words = .search a ∧
      .switch .analyze none ∉ partsOf words ∧ .switch .semantic none ∉ partsOf words ∧
      (∀ term, .semantic term ∉ Query.tokens a.query) ∧ Memory.Lists clock.wall disk a.file? ns ∧
      (∀ n ∈ found, ∀ l ∈ (line n).toList, takes l = true) ∧
      o.disk = disk ∧ o.exitCode = 0 ∧ o.output = "a\toat milk\t\nb\tMilk\t#home #now\n" := by
  intro t clock ns disk a words takes o found
  have hparse : parse (usual .default) words = .search a := by decide +kernel
  have hanalyze : .switch .analyze none ∉ partsOf words := by decide +kernel
  have hsemantic : .switch .semantic none ∉ partsOf words := by decide +kernel
  have htokens : Query.tokens a.query = [.free "milk"] := by decide +kernel
  have hterms : ∀ term, .semantic term ∉ Query.tokens a.query := by simp [htokens]
  have hread : ∀ n ∈ ns, ∃ v, Note.ofJson t v = .ok n := by
    simp only [ns, List.mem_cons, List.not_mem_nil, or_false, forall_eq_or_imp, forall_eq]
    exact ⟨⟨_, Note.ofJson_plain t "a" "milk"⟩,
      ⟨.obj [("id", .str "b"), ("title", .str "Milk"), ("tags", .strings ["home", "now"])], rfl⟩,
      ⟨_, Note.ofJson_plain t "c" "tea"⟩, ⟨_, Note.ofJson_plain t "a" "oat milk"⟩⟩
  have hsound : ∀ n ∈ ns, n.Sound := fun n hn =>
    have ⟨_, hv⟩ := hread n hn
    (Note.Validated.read hv).sound
  have hfinite : ∀ n ∈ ns, n.FiniteEmbedding := by simp [ns, Note.FiniteEmbedding, Note.plain]
  have hexpressible : ∀ n ∈ ns, n.Expressible := by decide +kernel
  have hholds : Memory.Holds disk "n.json" ns := @Memory.holds_of_write ns "n.json" [] disk rfl
  have hlists : Memory.Lists clock.wall disk a.file? ns :=
    .file hholds.exists_file hholds.text
      (Memory.notesOfFile_fileText hsound hfinite hexpressible t)
  have htakes : ∀ n ∈ found, ∀ l ∈ (line n).toList, takes l = true := by decide +kernel
  have hlines : lines found = "a\toat milk\t\nb\tMilk\t#home #now\n" := by decide +kernel
  obtain ⟨hdisk, hexit, houtput⟩ :=
    run_eq_filter [] takes rfl hparse hanalyze hsemantic hterms hlists
  have hzero : o.exitCode = 0 := hexit.mpr htakes
  exact ⟨rfl, hparse, hanalyze, hsemantic, hterms, hlists, htakes, hdisk, hzero,
    (houtput hzero).trans hlines⟩

/-- The title of a note has half of a pair, which cannot be written.  The run fails, though the note
is loaded and matches the query. -/
theorem run_fails_of_half :
    let t := Moment.ofDate .first
    let clock : Clock := ⟨t, 1000.0, by decide⟩
    let n := Note.plain "a" (.ofList (("milk " : Text).toList ++ [.half 0])) t
    let disk : Disk := [(["n.json"], .file (.ofString (Memory.fileText [n])))]
    let a : Arguments := ⟨"milk", "n.json", "v.txt", false, false⟩
    let words : List Text := ["milk", "--notes-file=n.json", "--word-vectors", "v.txt"]
    let takes : Letter → Bool := fun l => !l.isHigh && !l.isLow
    let o := run .default clock [] takes words disk
    Settings.default.semanticSearchEnabled = false ∧ parse (usual .default) words = .search a ∧
      .switch .analyze none ∉ partsOf words ∧ .switch .semantic none ∉ partsOf words ∧
      (∀ term, .semantic term ∉ Query.tokens a.query) ∧ Memory.Lists clock.wall disk a.file? [n] ∧
      (Memory.latest [n]).filter (Query.finds a.query clock.wall) = [n] ∧
      o.exitCode = 1 ∧ o.output = "" := by
  intro t clock n disk a words takes o
  have hparse : parse (usual .default) words = .search a := by decide +kernel
  have hanalyze : .switch .analyze none ∉ partsOf words := by decide +kernel
  have hsemantic : .switch .semantic none ∉ partsOf words := by decide +kernel
  have htokens : Query.tokens a.query = [.free "milk"] := by decide +kernel
  have hterms : ∀ term, .semantic term ∉ Query.tokens a.query := by simp [htokens]
  have hsound : n.Sound := Note.sound_of_ofJson (Note.ofJson_plain t _ _)
  have hholds : Memory.Holds disk "n.json" [n] := @Memory.holds_of_write [n] "n.json" [] disk rfl
  have hread := Memory.notesOfFile_of_render_eq (n := n) rfl hsound
    (by simp [Note.FiniteEmbedding, n, Note.plain]) (by decide +kernel) t
  have hlists : Memory.Lists clock.wall disk a.file? [n] :=
    .file hholds.exists_file hholds.text hread
  have hfound : (Memory.latest [n]).filter (Query.finds a.query clock.wall) = [n] := by
    decide +kernel
  have ho : o = report takes [n] disk := by
    have hsearch := searchFile_eq_filter .default [] takes rfl rfl hterms hlists
    simp only [o, run, hparse]
    exact hsearch.trans (congrArg (report takes · disk) hfound)
  exact ⟨rfl, hparse, hanalyze, hsemantic, hterms, hlists, hfound, by rw [ho]; decide +kernel,
    by rw [ho]; decide +kernel⟩

end CommandLine

end Notebook
