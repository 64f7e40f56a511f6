import Notebook.Proofs.Disk
import Notebook.Proofs.Json.RoundTrip
import Notebook.Proofs.Note.Expressible
import Notebook.Proofs.Store.Filed

/-!
# Notes saved and loaded

A store writes its notes to a file as one record.  A store that is then opened on this file has the
same notes in the same order, if no two of them share an id, their embeddings are finite, and a
record can tell them.
-/

namespace Notebook

/-! ### Records that can be read back -/

namespace Json

theorem Readable.mono {room room' : ℕ} {v : Json} (h : Readable room v) (hle : room ≤ room') :
    Readable room' v := by
  induction h generalizing room' with
  | null => exact .null
  | bool b => exact .bool b
  | int hi => exact .int hi
  | float x => exact .float x
  | str hs => exact .str hs
  | arr h ih =>
    obtain ⟨k, rfl⟩ : ∃ k, room' = k + 1 := ⟨room' - 1, by omega⟩
    exact .arr fun v hv => ih v hv (by omega)
  | obj hkeys hwhole h ih =>
    obtain ⟨k, rfl⟩ : ∃ k, room' = k + 1 := ⟨room' - 1, by omega⟩
    exact .obj hkeys hwhole fun p hp => ih p hp (by omega)

theorem readable_map {α : Type} {room : ℕ} {f : α → Json} {as : List α}
    (h : ∀ a ∈ as, Readable room (f a)) : Readable (room + 1) (.arr (as.map f)) := by
  refine .arr fun v hv => ?_
  obtain ⟨a, ha, rfl⟩ := List.mem_map.mp hv
  exact h a ha

theorem readable_ofOption {α : Type} {room : ℕ} {f : α → Json} {o : Option α}
    (h : ∀ a ∈ o, Readable room (f a)) : Readable room (Json.ofOption f o) := by
  cases o with
  | none => exact .null
  | some a => exact h a rfl

end Json

open Json (Readable)

theorem Grid.readable_nested (shape : List ℕ) (xs : List Float) :
    Readable shape.length (nested Note.entryRecord shape xs) := by
  induction shape generalizing xs with
  | nil =>
    rw [nested, Note.entryRecord]
    split
    · exact .float _
    · exact .null
  | cons n shape ih =>
    rw [nested_cons]
    exact Json.readable_map fun ys _ => ih ys

namespace Note

/-- The names of fields are whole. -/
theorem Field.whole_name (f : Field) : f.name.Whole := by cases f <;> exact Text.whole_ofString _

/-- No more than 64 lists and records stand in one another in a field. -/
theorem readable_fieldRecord {n : Note} (hn : n.Sound) (hwhole : ∀ s ∈ n.writtenTexts, s.Whole)
    (f : Field) : Readable 64 (n.fieldRecord f) := by
  obtain ⟨hid, htitle, hbody, htags, hsuggested, htasks⟩ := forall_mem_writtenTexts.mp hwhole
  have htexts {ss : List Text} (hss : ∀ s ∈ ss, s.Whole) : Readable 64 (.strings ss) :=
    Json.readable_map fun s hs => .str (hss s hs)
  have htime (t : Moment) : Readable 63 (momentRecord t) := .str (Text.whole_ofString t.text)
  have hmoment (o : Option Moment) : Readable 64 (.ofOption momentRecord o) :=
    Json.readable_ofOption fun t _ => (htime t).mono (by omega)
  cases f with
  | id => exact .str hid
  | title => exact .str htitle
  | body => exact .str hbody
  | tags => exact htexts htags
  | favorite => exact .bool n.favorite
  | archived => exact .bool n.archived
  | system => exact .bool n.system
  | priority => exact .str (by cases n.priority <;> exact Text.whole_ofString _)
  | progress => exact .float n.progress
  | dueDate => exact hmoment n.dueDate
  | tasks =>
    have hnames : (["text", "completed"] : List Text).Nodup := by decide
    refine Json.readable_map fun t ht => .obj hnames ?_ ?_
    · simp only [List.mem_cons, List.not_mem_nil, or_false, forall_eq_or_imp, forall_eq]
      exact ⟨Text.whole_ofString _, Text.whole_ofString _⟩
    · simp only [List.mem_cons, List.not_mem_nil, or_false, forall_eq_or_imp, forall_eq]
      exact ⟨.str (htasks t ht), .bool t.completed⟩
  | embedding =>
    exact Json.readable_ofOption fun g hg =>
      (Grid.readable_nested g.shape g.entries).mono (hn.embedding g hg).dimensions
  | suggestedTags => exact htexts hsuggested
  | tagConfidences => exact Json.readable_map fun x _ => .float x
  | lastAnalyzed => exact hmoment n.lastAnalyzed
  | created => exact (htime n.created).mono (by omega)
  | modified => exact (htime n.modified).mono (by omega)

theorem readable_toRecord {n : Note} (hn : n.Sound) (hwhole : ∀ s ∈ n.writtenTexts, s.Whole) :
    Readable 65 n.toRecord := by
  refine .obj (n.keys_fieldRecords ▸ nodup_names) (fun p hp => ?_) fun p hp => ?_
  all_goals obtain ⟨f, -, rfl⟩ := List.mem_map.mp hp
  · exact f.whole_name
  · exact readable_fieldRecord hn hwhole f

end Note

/-! ### Files -/

namespace Memory

variable {ns : List Note}

theorem readable_record (h : ∀ n ∈ ns, n.Sound) (hexpressible : ∀ n ∈ ns, n.Expressible) :
    Readable Json.maxDepth (record ns) := by
  have hnotes : Readable 67 (record ns) := by
    refine .obj (by simp) ?_ ?_
    · exact List.forall_mem_singleton.mpr (Text.whole_ofString _)
    · exact List.forall_mem_singleton.mpr (Json.readable_map fun n hn =>
        Note.readable_toRecord (h n hn) (hexpressible n hn).texts)
  exact hnotes.mono (by decide)

theorem noteOf_toRecord {n : Note} (hn : n.Sound) (hmoments : ∀ t ∈ n.moments, t.Expressible)
    (now : Moment) : noteOf now n.toRecord = .ok n.reread := by
  have hpairs : Keyed.ofPairs n.fieldRecords = n.fieldRecords :=
    Keyed.ofPairs_of_nodup (n.keys_fieldRecords ▸ Note.nodup_names)
  have hid : n.fieldRecords.get? "id" = some (.str n.id) := n.get?_fieldRecords .id
  show noteOf now (.obj n.fieldRecords) = _
  rw [noteOf]
  simp only [hpairs, hid, Note.ofFields_fieldRecords hn hmoments]

theorem notesOf_map (h : ∀ n ∈ ns, n.Sound) (hexpressible : ∀ n ∈ ns, n.Expressible)
    (now : Moment) : notesOf now (ns.map Note.toRecord) = .ok (ns.map Note.reread) := by
  induction ns with
  | nil => rfl
  | cons n ns ih =>
    rw [List.map_cons, notesOf,
      noteOf_toRecord (h n List.mem_cons_self) (hexpressible n List.mem_cons_self).moments,
      ih (fun m hm => h m (List.mem_cons_of_mem n hm))
        fun m hm => hexpressible m (List.mem_cons_of_mem n hm)]
    rfl

/-- The notes of a file are those for which it was written, but for what embeddings lose. -/
theorem notesOfFile_fileText_reread (h : ∀ n ∈ ns, n.Sound)
    (hexpressible : ∀ n ∈ ns, n.Expressible) (now : Moment) :
    notesOfFile now (.ofString (fileText ns)) = .ok (ns.map Note.reread) := by
  have hread := Json.ofChars_render (readable_record h hexpressible)
  have htext : (Text.Decoded.ofString (fileText ns)).text = Json.render (record ns) :=
    String.toList_ofList
  have hending : (Text.Decoded.ofString (fileText ns)).ending = .complete := rfl
  rw [notesOfFile, hending]
  simp only [htext, hread]
  exact notesOf_map h hexpressible now

theorem notesOfFile_fileText (h : ∀ n ∈ ns, n.Sound) (hfinite : ∀ n ∈ ns, n.FiniteEmbedding)
    (hexpressible : ∀ n ∈ ns, n.Expressible) (now : Moment) :
    notesOfFile now (.ofString (fileText ns)) = .ok ns := by
  rw [notesOfFile_fileText_reread h hexpressible, List.map_congr_left fun n hn =>
    Note.reread_of_finite (hfinite n hn), List.map_id']

/-- Of two notes that are written alike the one that a record can tell is read, whichever of them
was written. -/
theorem notesOfFile_of_render_eq {n m : Note} (hrecord : n.toRecord.render = m.toRecord.render)
    (hm : m.Sound) (hfinite : m.FiniteEmbedding) (hexpressible : m.Expressible) (now : Moment) :
    notesOfFile now (.ofString (fileText [n])) = .ok [m] := by
  have htext : fileText [n] = fileText [m] := by
    simp only [fileText, record, List.map_singleton, Json.toText, Json.render, Json.renderFields,
      Json.renderItems, hrecord]
  rw [htext]
  exact notesOfFile_fileText (by simpa) (by simpa) (by simpa) now

/-- Notes with different ids are filed one after the other. -/
theorem filed_of_nodup (h : (ns.map (·.id)).Nodup) :
    filed ns = ns.map fun n => (n.id, n) := by
  refine Keyed.ofPairs_of_nodup ?_
  rwa [List.map_map]

theorem values_filed (h : (ns.map (·.id)).Nodup) : (filed ns).values = ns := by
  rw [filed_of_nodup h, Keyed.values, List.map_map]
  exact List.map_id ns

/-- Does the file at a path hold these notes? -/
structure Holds (disk : Disk) (path : Text) (ns : List Note) : Prop where
  exists_file : disk.holds path = .ok true
  text : disk.read path = .ok (.ofString (fileText ns))

theorem holds_of_write {path : Text} {disk disk' : Disk}
    (h : disk.write path (.ofString (fileText ns)) = .ok disk') : Holds disk' path ns :=
  ⟨Disk.holds_of_write h, Disk.read_of_write h⟩

/-- Loaded are the notes that are read from the text of the file. -/
theorem load_of_reads {disk : Disk} {path : Text} (hfile : Holds disk path ns) {now : Moment}
    {ms : List Note} (hread : notesOfFile now (.ofString (fileText ns)) = .ok ms) :
    load now (some path) disk = .ok ⟨filed ms, disk, some path, .idle⟩ := by
  rw [load]
  simp only [hfile.exists_file, hfile.text, hread]
  rfl

/-- From a file that holds notes just these are loaded. -/
theorem load_of_holds {disk : Disk} {path : Text} (hfile : Holds disk path ns)
    (h : ∀ n ∈ ns, n.Sound) (hfinite : ∀ n ∈ ns, n.FiniteEmbedding)
    (hexpressible : ∀ n ∈ ns, n.Expressible) (now : Moment) :
    load now (some path) disk = .ok ⟨filed ns, disk, some path, .idle⟩ :=
  load_of_reads hfile (notesOfFile_fileText h hfinite hexpressible now)

end Memory

/-! ### Stores -/

namespace Store

theorem notes_ofNotes {ns : List Note} (h : (ns.map (·.id)).Nodup) (disk : Disk) (shared : Bool) :
    (ofNotes ns disk shared).notes = ns := Memory.values_filed h

/-- Wherever a file can be written, saving puts the notes there. -/
theorem save_of_writable {s : Store} {path : Option Text} {p : Text}
    (hpath : path.or s.memory.path = some p)
    (hwritable : ∃ ps, s.memory.disk.writable p = .ok ps) :
    ∃ disk, s.save path = .ok (s.withDisk disk) ∧ Memory.Holds disk p s.notes := by
  obtain ⟨ps, hps⟩ := hwritable
  have hwrite : s.memory.disk.write p (.ofString (Memory.fileText s.notes)) =
      .ok (s.memory.disk.set ps (.file (.ofString (Memory.fileText s.notes)))) := by
    rw [Disk.write, hps]
  have hsave : s.memory.save p = _ := hwrite
  refine ⟨_, ?_, Memory.holds_of_write hwrite⟩
  rw [save, hpath]
  simp only [hsave]

/-- A store that is opened on the file to which another one was saved has the notes of that
store, in the same order, if a record can tell them. -/
theorem notes_open?_of_save {s : Store} {path : Option Text} {p : Text}
    (hpath : path.or s.memory.path = some p) (hwritable : ∃ ps, s.memory.disk.writable p = .ok ps)
    (hids : (s.notes.map (·.id)).Nodup) (hvalidated : ∀ n ∈ s.notes, n.Validated)
    (hfinite : ∀ n ∈ s.notes, n.FiniteEmbedding) (hexpressible : ∀ n ∈ s.notes, n.Expressible)
    (now : Moment) (shared : Bool) :
    ∃ s' s'', s.save path = .ok s' ∧ open? now (some p) s'.memory.disk shared = .ok s'' ∧
      s''.notes = s.notes := by
  obtain ⟨disk, hsave, hfile⟩ := save_of_writable hpath hwritable
  have hload := Memory.load_of_holds hfile (fun n hn => (hvalidated n hn).sound) hfinite
    hexpressible now
  refine ⟨s.withDisk disk, ofMemory ⟨Memory.filed s.notes, disk, some p, .idle⟩ shared, hsave, ?_,
    Memory.values_filed hids⟩
  show (Memory.load now (some p) disk).map (ofMemory · shared) = _
  rw [hload]
  rfl

/-- A note that was read from other spellings of its fields, and then refused a new progress.  Its
title has a first half of a pair with no second one behind it. -/
theorem notes_open?_of_save_spellings :
    let t := Moment.ofDate .first
    let v := Json.obj [("id", .str "a"),
      ("title", .str (.ofList [.char 'c', .char (Char.ofNat 0x1F600), .half 0x3D])),
      ("favorite", .str "yes"), ("progress", .str "0.5"),
      ("due_date", .str "2024-06-15 12:00:00,5+05:30"),
      ("content_embedding", .arr [.str "0.1", .int 2]),
      ("tasks", .arr [.obj [("text", .str "pack")]])]
    ∃ n, Note.ofJson t v = .ok n ∧
      n.assign "progress" (.int 2) = Checked.under "progress" (.fault .tooLarge) ∧
      ∃ s' s'', (ofNotes [n] [] false).save (some "notes.json") = .ok s' ∧
        open? t (some "notes.json") s'.memory.disk false = .ok s'' ∧ s''.notes = [n] := by
  intro t v
  have hread : (Note.ofJson t v).map (fun n =>
      (n.embedding.all (·.entries.all Decimal.isFinite), n.assign "progress" (.int 2),
        decide n.Expressible)) =
      .ok (true, Checked.under "progress" (.fault .tooLarge), true) := by decide +kernel
  obtain ⟨n, hn, hpair⟩ := Checked.map_eq_ok_iff.mp hread
  obtain ⟨hfinite, hpair⟩ := Prod.mk.inj hpair
  obtain ⟨hassign, htold⟩ := Prod.mk.inj hpair
  have hexpressible : n.Expressible := of_decide_eq_true htold
  have hvalidated : n.Validated := by
    have h := (Note.Validated.read hn).assign "progress" (.int 2)
    rwa [hassign] at h
  have hnotes : (ofNotes [n] [] false).notes = [n] := notes_ofNotes (by simp) [] false
  have hpath : (some ("notes.json" : Text)).or (ofNotes [n] [] false).memory.path =
      some "notes.json" := rfl
  have h := notes_open?_of_save hpath ⟨["notes.json"], rfl⟩ (by simp [hnotes])
    (by simpa [hnotes] using hvalidated)
    (by simpa [hnotes, Note.FiniteEmbedding, Option.all_eq_true] using hfinite)
    (by simpa [hnotes] using hexpressible) t false
  rw [hnotes] at h
  exact ⟨n, hn, hassign, h⟩

/-! ### What a record cannot tell -/

/-- The same for a store that is opened on the file to which another one was saved. -/
theorem notes_open?_of_render_eq {n m : Note} (hrecord : n.toRecord.render = m.toRecord.render)
    (hm : m.Sound) (hfinite : m.FiniteEmbedding) (hexpressible : m.Expressible) (now : Moment) :
    ∃ s' s'', (ofNotes [n] [] false).save (some "notes.json") = .ok s' ∧
      open? now (some "notes.json") s'.memory.disk false = .ok s'' ∧ s''.notes = [m] := by
  have hthere : Disk.writable "notes.json" [] = .ok ["notes.json"] := rfl
  have hpath : (some ("notes.json" : Text)).or (ofNotes [n] [] false).memory.path =
      some "notes.json" := rfl
  obtain ⟨disk, hsave, hfile⟩ := save_of_writable hpath ⟨_, hthere⟩
  rw [notes_ofNotes (by simp)] at hfile
  have hread := Memory.notesOfFile_of_render_eq hrecord hm hfinite hexpressible now
  refine ⟨_, ofMemory ⟨Memory.filed [m], disk, some "notes.json", .idle⟩ false, hsave, ?_,
    Memory.values_filed (by simp)⟩
  show (Memory.load now (some "notes.json") disk).map (ofMemory · false) = _
  rw [Memory.load_of_reads hfile hread]
  rfl

/-- Two halves of a pair come back as the character for which the pair stands, the seconds of an
offset are lost, and so it is when clocks show a time twice. -/
theorem notes_open?_of_save_untold :
    let t := Moment.ofDate .first
    let due (o : Offset) := (Note.plain "a" "tea" t).setMoment .dueDate { t with offset := some o }
    let told := due ⟨5400000000, false, by decide⟩
    let joined := Note.plain "a" (.ofList [.char (Char.ofNat 0x1F600)]) t
    ∀ p ∈ [(Note.plain "a" (.ofList [.half 0x3D, .half 0x600]) t, joined),
        (due ⟨5430000000, false, by decide⟩, told), (due ⟨5400000000, true, by decide⟩, told)],
      p.1.Validated ∧ p.1.embedding = none ∧
        ∃ s' s'', (ofNotes [p.1] [] false).save (some "notes.json") = .ok s' ∧
          open? t (some "notes.json") s'.memory.disk false = .ok s'' ∧ s''.notes = [p.2] ∧
            p.2 ≠ p.1 := by
  intro t due told joined
  have htea : (Note.plain "a" "tea" t).Validated := .read (Note.ofJson_plain t "a" "tea")
  have hdue (o : Offset) : (due o).Validated := htea.setMoment .dueDate _
  have hjoined : joined.Validated := .read (Note.ofJson_plain t _ _)
  have hlost {n m : Note} (hn : n.Validated) (hm : m.Validated)
      (hrecord : n.toRecord.render = m.toRecord.render)
      (hnone : n.embedding = none ∧ m.embedding = none) (hexpressible : m.Expressible)
      (hne : m ≠ n) : n.Validated ∧ n.embedding = none ∧
        ∃ s' s'', (ofNotes [n] [] false).save (some "notes.json") = .ok s' ∧
          open? t (some "notes.json") s'.memory.disk false = .ok s'' ∧ s''.notes = [m] ∧ m ≠ n := by
    have hfinite : m.FiniteEmbedding := by simp [Note.FiniteEmbedding, hnone.2]
    obtain ⟨s', s'', hsave, hopen, hnotes⟩ :=
      notes_open?_of_render_eq hrecord hm.sound hfinite hexpressible t
    exact ⟨hn, hnone.1, s', s'', hsave, hopen, hnotes, hne⟩
  simp only [List.mem_cons, List.not_mem_nil, or_false, forall_eq_or_imp, forall_eq]
  refine ⟨hlost (.read (Note.ofJson_plain t _ _)) hjoined ?_ ⟨rfl, rfl⟩ ?_ ?_,
    hlost (hdue _) (hdue _) ?_ ⟨rfl, rfl⟩ ?_ ?_, hlost (hdue _) (hdue _) ?_ ⟨rfl, rfl⟩ ?_ ?_⟩
  all_goals decide +kernel

end Store

end Notebook
