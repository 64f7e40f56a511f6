import Notebook.Proofs.Analysis.Aligned
import Notebook.Proofs.Analysis.Face
import Notebook.Proofs.Analysis.Titled
import Notebook.Proofs.Embedding.Table
import Notebook.Proofs.Store.Loaded
import Notebook.Proofs.Store.Reload
import Notebook.Proofs.Store.Sound

/-!
# Analyses that are saved

The notes of a store are handed in, workers do the jobs in any order and at any time, and the
writer writes each result down and saves the notes.  When nothing waits any more, the file holds
the notes of the store with their findings.  All that was not found out is as it was, as far as a
record can tell.
-/

namespace Notebook

/-! ### Sources that draw -/

namespace Confidences

def IsDrawn : Confidences → Prop
  | .drawn .. => True
  | .given _ => False

variable {s : Confidences}

theorem IsDrawn.take (h : s.IsDrawn) (tags : List Text) : (s.take tags).2.IsDrawn := by
  cases s with
  | drawn low high fractions used => trivial
  | given f => exact h.elim

/-- There is a number for each tag. -/
theorem IsDrawn.exists_floats (h : s.IsDrawn) (tags : List Text) :
    ∃ ys : List Float, (s.take tags).1 = some (ys.map .float) := by
  cases s with
  | drawn low high fractions used =>
    obtain ⟨ys, hys, -⟩ := take_drawn low high fractions used tags
    exact ⟨ys, hys⟩
  | given f => exact h.elim

end Confidences

/-! ### Findings of filed notes -/

/-- A finding that is written to its end. -/
theorem Finding.HasFloats.completes {f : Finding} (hf : f.HasFloats) (n : Note) :
    f.completes n = true := by
  cases f with
  | embedding g => rfl
  | tags candidates confidences time =>
    obtain ⟨ys, rfl⟩ := hf
    refine completes_of_numbers (fun v hv => ?_) time n
    obtain ⟨y, -, rfl⟩ := List.mem_map.mp hv
    exact ⟨y, rfl⟩

theorem Finding.isFinding_actions (f : Finding) : ∀ a ∈ f.actions, a.IsFinding := by
  cases f <;> simp [actions, Action.IsFinding]

/-- Candidates are whole, for they are made of plain letters. -/
theorem whole_of_mem_entities {limit : Int} {text tag : Text} (h : tag ∈ entities limit text) :
    tag.Whole := by
  obtain ⟨name, hname, rfl⟩ := exists_name_of_mem_entities h
  refine Text.whole_of_not_high fun l hl => ?_
  rw [Entities.toList_titleCase] at hl
  have hplain := Entities.plain_spaced hname.isWord l hl
  rw [Letter.isHigh_eq, ← Bool.not_eq_true, Json.isHigh_iff]
  omega

/-- Can a record tell what was found out? -/
def Finding.Expressible : Finding → Prop
  | .tags candidates _ time => (∀ s ∈ candidates, s.Whole) ∧ time.Expressible
  | .embedding _ => True

theorem Finding.Expressible.write {f : Finding} (hf : f.Expressible) {now : Moment}
    (hnow : now.Expressible) {n : Note} (hn : n.Expressible) : (f.write now n).Expressible := by
  cases f with
  | embedding g => exact ⟨hn.texts, (hn.touch hnow).moments⟩
  | tags candidates confidences time =>
    obtain ⟨hcandidates, htime⟩ := hf
    obtain ⟨hid, htitle, hbody, htags, -, htasks⟩ := Note.forall_mem_writtenTexts.mp hn.texts
    obtain ⟨hcreated, -, hdue, -⟩ := Note.forall_mem_moments.mp hn.moments
    have hkept : ∀ s ∈ (Memory.Change.newTags n.tags candidates confidences).map Prod.fst,
        s.Whole := by
      refine List.forall_mem_map.mpr fun q hq => hcandidates _ ?_
      exact (List.of_mem_zip (List.mem_filter.mp hq).1).1
    simp only [Finding.write]
    split
    · refine ⟨Note.forall_mem_writtenTexts.mpr ⟨hid, htitle, hbody, htags, hkept, htasks⟩,
        Note.forall_mem_moments.mpr ⟨hcreated, Moment.expressible_zoned hnow, hdue, ?_⟩⟩
      rintro t ⟨⟩
      exact Moment.expressible_zoned htime
    · exact ⟨Note.forall_mem_writtenTexts.mpr ⟨hid, htitle, hbody, htags, hkept, htasks⟩,
        hn.moments⟩

/-- The job writes a finding down on the note of one of the ids. -/
def Job.Finds (ids : List Text) (j : Job) : Prop :=
  ∃ id ∈ ids, ∃ f : Finding, j = .change id f.actions ∧ f.HasFloats ∧ f.Expressible ∧ j.Sound

theorem Job.Finds.isPlain {ids : List Text} {j : Job} (h : j.Finds ids) : j.IsPlain := by
  obtain ⟨id, -, f, rfl, -⟩ := h
  exact ⟨f, rfl⟩

namespace Memory

/-! ### Saving -/

/-- Where the file can be written it is written, and can be written again. -/
theorem persist_of_writable {m : Memory} {path : Text} (hpath : m.path = some path)
    (hwritable : ∃ ps, m.disk.writable path = .ok ps) :
    ∃ disk, m.persist = { m with disk := disk, sync := .success } ∧
      (∃ ps, disk.writable path = .ok ps) ∧ Holds disk path m.notes.values := by
  obtain ⟨notes, disk, file, sync⟩ := m
  obtain ⟨ps, hps⟩ := hwritable
  subst hpath
  have hwrite : disk.write path (.ofString (fileText notes.values)) =
      .ok (disk.set ps (.file (.ofString (fileText notes.values)))) := by
    rw [Disk.write, hps]
  have hsave : (Memory.mk notes disk (some path) .syncing).save path = _ := hwrite
  refine ⟨_, ?_, ⟨ps, Disk.writable_set hps⟩, holds_of_write hwrite⟩
  simp only [persist, hsave]

/-- The store works on a file that can be written, and its notes have the faces of `r`. -/
structure Kept (path : Text) (r : Keyed Note) (m : Memory) : Prop where
  file : m.path = some path
  writable : ∃ ps, m.disk.writable path = .ok ps
  faces_eq : faces m.notes = faces r
  sound : AllSound m.notes
  expressible : ∀ n ∈ m.notes.values, n.Expressible

namespace Kept

variable {path : Text} {r : Keyed Note} {m : Memory}

theorem keys_eq (h : m.Kept path r) : m.notes.keys = r.keys := by
  rw [← keys_faces, h.faces_eq, keys_faces]

/-- A finding that is written down leaves all faces as they are, and the file holds the notes. -/
theorem run (h : m.Kept path r) {j : Job} (hj : j.Finds r.keys) {now : Moment}
    (hnow : now.Expressible) : (Memory.run now j m).1.Kept path r ∧
      Holds (Memory.run now j m).1.disk path (Memory.run now j m).1.notes.values := by
  obtain ⟨id, hid, f, rfl, hf, htold, hsound⟩ := hj
  obtain ⟨n, hn⟩ : ∃ n, m.notes.get? id = some n := by
    rw [← Option.isSome_iff_exists, Keyed.isSome_get?_iff, h.keys_eq]
    exact hid
  let written : Memory := { m with notes := Keyed.adjust id (f.write now) m.notes }
  have hrun : (Memory.run now (.change id f.actions) m).1 = written.persist := by
    show (m.change now id f.actions).1 = _
    rw [change_finding hn, hf.completes n, if_pos rfl]
  have hfaces := (change_findings now id f.isFinding_actions m).1
  have hexpressible : ∀ n ∈ written.notes.values, n.Expressible :=
    Keyed.forall_values_adjust h.expressible fun _ => htold.write hnow
  have hall := (allSound_run h.sound now hsound).1
  obtain ⟨disk, hpersist, hwritable, hholds⟩ :=
    persist_of_writable (show written.path = some path from h.file) h.writable
  rw [hrun] at hall ⊢
  rw [show (m.change now id f.actions).1 = written.persist from hrun] at hfaces
  rw [hpersist] at hall hfaces ⊢
  exact ⟨⟨h.file, hwritable, hfaces.trans h.faces_eq, hall, hexpressible⟩, hholds⟩

/-- Whenever a file that holds the notes is loaded, its notes have the faces that they had. -/
theorem lists (h : m.Kept path r) (hholds : Holds m.disk path m.notes.values) (t : Moment) :
    ∃ ns, Lists t m.disk (some path) ns ∧ ns.map Note.face = r.values.map Note.face := by
  refine ⟨m.notes.values.map Note.reread, ?_, ?_⟩
  · exact .file hholds.exists_file hholds.text
      (notesOfFile_fileText_reread h.sound.values h.expressible t)
  · have hvalues : m.notes.values.map Note.face = r.values.map Note.face := by
      rw [← values_faces, h.faces_eq, values_faces]
    rw [List.map_map, ← hvalues]
    rfl

end Kept

end Memory

/-! ### Pipelines at work -/

namespace Pipeline

/-- A note of one of the ids is handed in, or somebody goes on with the work.  Other confidences may
be drawn at any time. -/
def Move.Analyzes (ids : List Text) : Move → Prop
  | .event (.analyze n) => n.id ∈ ids
  | .event (.perform _) | .event .write => True
  | .turnTo source => source.IsDrawn
  | _ => False

/-- Whatever waits is about notes of the store, and can be written to its end. -/
structure Underway (path : Text) (r : Keyed Note) (p : Pipeline) : Prop where
  memory : p.store.memory.Kept path r
  isOpen : p.store.isOpen = true
  closed : p.closed = false
  queue : ∀ j ∈ p.store.channel.queue, j.Finds r.keys
  pending : ∀ j ∈ p.pending, j.id ∈ r.keys
  source : p.confidences.IsDrawn
  tables : ∀ t ∈ p.engine.table, t.Even

namespace Underway

variable {path : Text} {r : Keyed Note} {p : Pipeline}

theorem isPlain (h : p.Underway path r) : ∀ j ∈ p.store.channel.queue, j.IsPlain :=
  fun j hj => (h.queue j hj).isPlain

/-- A job for tags comes to a finding. -/
theorem exists_finding? (h : p.Underway path r) {j : AnalysisJob} (hj : j.task = .tags)
    (now : Moment) : ∃ f, p.finding? now j = some f := by
  obtain ⟨ys, hys⟩ := h.source.exists_floats (entities p.maxTags j.text)
  refine ⟨.tags (entities p.maxTags j.text) (ys.map .float) now, ?_⟩
  rw [finding?, hj]
  simp only [hys, Option.map_some]

theorem finds (h : p.Underway path r) {j : AnalysisJob} (hj : j ∈ p.pending) {now : Moment}
    (hnow : now.Expressible) {f : Finding} (hf : p.finding? now j = some f) :
    (Job.change j.id f.actions).Finds r.keys := by
  refine ⟨j.id, h.pending j hj, f, rfl, ?_⟩
  unfold finding? at hf
  cases hkind : j.task with
  | tags =>
    obtain ⟨ys, hys⟩ := h.source.exists_floats (entities p.maxTags j.text)
    simp only [hkind, hys, Option.map_some, Option.some.injEq] at hf
    subst hf
    exact ⟨⟨ys, rfl⟩, ⟨fun _ => whole_of_mem_entities, hnow⟩, trivial, trivial⟩
  | embedding =>
    simp only [hkind] at hf
    split at hf
    · next g hg =>
      cases hf
      exact ⟨trivial, trivial, Engine.sound_embed h.tables hg, trivial⟩
    · cases hf

theorem analyze (h : p.Underway path r) {n : Note} (hn : n.id ∈ r.keys) (now : Moment) :
    (p.step now (.analyze n)).Underway path r ∧
      (p.step now (.analyze n)).pending = p.pending ++ jobsOf n := by
  have hstep : p.step now (.analyze n) = { p with pending := p.pending ++ jobsOf n } := by
    simp [step, analyze?, h.closed]
  rw [hstep]
  refine ⟨{ h with pending := fun j hj => ?_ }, rfl⟩
  rcases List.mem_append.mp hj with hj | hj
  · exact h.pending j hj
  · simp only [jobsOf, List.mem_cons, List.not_mem_nil, or_false] at hj
    rcases hj with rfl | rfl <;> exact hn

theorem perform (h : p.Underway path r) {now : Moment} (hnow : now.Expressible) (i : Nat) :
    (p.performAt now i).Underway path r := by
  cases hj : p.pending[i]? with
  | none => rwa [performAt, hj]
  | some j =>
    have hmem : j ∈ p.pending := List.mem_of_getElem? hj
    have hpending : ∀ k ∈ p.pending.eraseIdx i, k.id ∈ r.keys :=
      fun k hk => h.pending k (List.mem_of_mem_eraseIdx hk)
    have hsource : (p.outcome now j).2.IsDrawn := by
      unfold outcome
      cases j.task with
      | tags => exact h.source.take _
      | embedding =>
        simp only
        split <;> exact h.source
    rw [performAt_of_getElem? hj]
    cases hf : p.finding? now j with
    | none => exact { h with pending := hpending, source := hsource }
    | some f =>
      refine { h with pending := hpending, source := hsource, queue := fun k hk => ?_ }
      rcases List.mem_append.mp hk with hk | hk
      · exact h.queue k hk
      · rw [List.mem_singleton.mp hk]
        exact h.finds hmem hnow hf

/-- The writer has nothing to do, or it writes a finding down and the file holds the notes. -/
theorem write_cases (h : p.Underway path r) {now : Moment} (hnow : now.Expressible) :
    p.store.channel.queue = [] ∧ p.step now .write = p ∨
      (p.step now .write).Underway path r ∧
        Memory.Holds (p.step now .write).store.memory.disk path
          (p.step now .write).store.memory.notes.values := by
  rcases Pipeline.write_cases h.isPlain now with ⟨hnone, hsame⟩ | ⟨j, rest, -, hqueue, hwrote⟩
  · refine .inl ⟨hnone.resolve_left fun hclosed => ?_, hsame⟩
    rw [h.isOpen] at hclosed
    cases hclosed
  · rw [hwrote]
    have hj : j.Finds r.keys := h.queue j (hqueue ▸ List.mem_cons_self)
    obtain ⟨hkept, hholds⟩ := h.memory.run hj hnow
    refine .inr ⟨{ h with memory := hkept, queue := fun k hk => ?_ }, hholds⟩
    exact h.queue k (hqueue ▸ List.mem_cons_of_mem j hk)

theorem move (h : p.Underway path r) {m : Moment × Move} (hm : m.2.Analyzes r.keys)
    (hnow : m.1.Expressible) : (p.move m).Underway path r := by
  obtain ⟨now, ⟨e⟩ | source⟩ := m
  case turnTo => exact { h with source := hm }
  cases e with
  | analyze n => exact (h.analyze hm now).1
  | perform i => exact h.perform hnow i
  | write =>
    rcases h.write_cases hnow with ⟨-, hsame⟩ | ⟨hunderway, -⟩
    · rwa [show p.move (now, .event .write) = p from hsame]
    · exact hunderway
  | assign | submit => exact hm.elim

theorem run (h : p.Underway path r) {ms : List (Moment × Move)}
    (hms : ∀ m ∈ ms, m.2.Analyzes r.keys) (htimes : ∀ m ∈ ms, m.1.Expressible) :
    (p.run ms).Underway path r := by
  induction ms using List.reverseRecOn with
  | nil => exact h
  | append_singleton ms m ih =>
    have hlast : m ∈ ms ++ [m] := List.mem_append_right _ List.mem_cons_self
    rw [run_concat]
    exact (ih (fun m hm => hms m (List.mem_append_left _ hm))
      fun m hm => htimes m (List.mem_append_left _ hm)).move (hms m hlast) (htimes m hlast)

end Underway

/-! ### Work that gets done -/

/-- The file holds the notes, or something waits that will be written. -/
def Saves (path : Text) (p : Pipeline) : Prop :=
  Memory.Holds p.store.memory.disk path p.store.memory.notes.values ∨
    (∃ j ∈ p.pending, j.task = .tags) ∨ p.store.channel.queue ≠ []

section Saves

variable {path : Text} {r : Keyed Note} {p : Pipeline}

theorem saves_analyze (h : p.Underway path r) {n : Note} (hn : n.id ∈ r.keys) (now : Moment) :
    (p.step now (.analyze n)).Saves path := by
  refine .inr (.inl ⟨⟨.tags, n.id, plainText n.title n.body⟩, ?_, rfl⟩)
  rw [(h.analyze hn now).2]
  exact List.mem_append_right _ List.mem_cons_self

theorem Saves.perform (hs : p.Saves path) (h : p.Underway path r) (now : Moment) (i : Nat) :
    (p.performAt now i).Saves path := by
  cases hj : p.pending[i]? with
  | none => rwa [performAt, hj]
  | some j =>
    rw [performAt_of_getElem? hj]
    have hmemory : ∀ f : Option Finding,
        ((f.map fun f => p.store.change j.id f.actions).getD p.store).memory = p.store.memory := by
      rintro (_ | f) <;> rfl
    rcases hs with hholds | ⟨k, hk, htags⟩ | hqueue
    · refine .inl ?_
      rw [hmemory]
      exact hholds
    · cases htask : j.task with
      | tags =>
        obtain ⟨f, hf⟩ := h.exists_finding? htask now
        rw [hf]
        exact .inr (.inr (List.append_ne_nil_of_right_ne_nil _ (List.cons_ne_nil _ _)))
      | embedding =>
        -- the job for tags is another one, and goes on waiting
        obtain ⟨l, hl⟩ := List.mem_iff_getElem?.mp hk
        have hne : l ≠ i := by
          rintro rfl
          rw [hj, Option.some.injEq] at hl
          rw [hl, htags] at htask
          cases htask
        exact .inr (.inl ⟨k, List.mem_eraseIdx_iff_getElem?.mpr ⟨l, hne, hl⟩, htags⟩)
    · cases p.finding? now j with
      | none => exact .inr (.inr hqueue)
      | some f => exact .inr (.inr (List.append_ne_nil_of_left_ne_nil hqueue _))

theorem Saves.move (hs : p.Saves path) (h : p.Underway path r) {m : Moment × Move}
    (hm : m.2.Analyzes r.keys) (hnow : m.1.Expressible) : (p.move m).Saves path := by
  obtain ⟨now, ⟨e⟩ | source⟩ := m
  case turnTo => exact hs
  cases e with
  | analyze n => exact saves_analyze h hm now
  | perform i => exact hs.perform h now i
  | write =>
    rcases h.write_cases hnow with ⟨-, hsame⟩ | ⟨-, hholds⟩
    · rwa [show p.move (now, .event .write) = p from hsame]
    · exact .inl hholds
  | assign | submit => exact hm.elim

/-- Once a note was handed in there is something to save. -/
theorem saves_run (h : p.Underway path r) {ms : List (Moment × Move)}
    (hms : ∀ m ∈ ms, m.2.Analyzes r.keys) (htimes : ∀ m ∈ ms, m.1.Expressible) {t : Moment}
    {n : Note} (hn : (t, .event (.analyze n)) ∈ ms) : (p.run ms).Saves path := by
  induction ms using List.reverseRecOn with
  | nil => cases hn
  | append_singleton ms m ih =>
    have hbefore : ∀ m ∈ ms, m.2.Analyzes r.keys := fun m hm => hms m (List.mem_append_left _ hm)
    have hearlier : ∀ m ∈ ms, m.1.Expressible := fun m hm => htimes m (List.mem_append_left _ hm)
    have hlast : m ∈ ms ++ [m] := List.mem_append_right _ List.mem_cons_self
    rw [run_concat]
    rcases List.mem_append.mp hn with hn | hn
    · exact (ih hbefore hearlier hn).move (h.run hbefore hearlier) (hms m hlast) (htimes m hlast)
    · obtain rfl := List.mem_singleton.mp hn
      exact saves_analyze (h.run hbefore hearlier) (hms _ hlast) t

theorem Saves.holds (hs : p.Saves path) (hpending : p.pending = [])
    (hqueue : p.store.channel.queue = []) :
    Memory.Holds p.store.memory.disk path p.store.memory.notes.values := by
  rcases hs with hholds | ⟨j, hj, -⟩ | hne
  · exact hholds
  · rw [hpending] at hj
    cases hj
  · exact absurd hqueue hne

end Saves

/-- Where there is no note nothing happens. -/
theorem run_of_no_ids {p : Pipeline} (hpending : p.pending = [])
    (hqueue : p.store.channel.queue = []) {ms : List (Moment × Move)}
    (hms : ∀ m ∈ ms, m.2.Analyzes []) : (p.run ms).store = p.store := by
  have hrun : (p.run ms).store = p.store ∧ (p.run ms).pending = [] := by
    induction ms using List.reverseRecOn with
    | nil => exact ⟨rfl, hpending⟩
    | append_singleton ms m ih =>
      obtain ⟨hstore, hnone⟩ := ih fun m hm => hms m (List.mem_append_left _ hm)
      have hlast : m.2.Analyzes [] := hms m (List.mem_append_right _ List.mem_cons_self)
      rw [run_concat]
      obtain ⟨now, ⟨e⟩ | source⟩ := m
      case turnTo => exact ⟨hstore, hnone⟩
      cases e with
      | analyze n => cases hlast
      | perform i =>
        have hsame : (p.run ms).move (now, .event (.perform i)) = p.run ms := by
          simp [move, step, performAt, hnone]
        rw [hsame]
        exact ⟨hstore, hnone⟩
      | write =>
        have hchannel : (p.run ms).store.channel.step (Memory.worker now) =
            (p.run ms).store.channel := by
          rw [hstore]
          simp [Channel.step, hqueue]
        refine ⟨?_, hnone⟩
        show Store.mk ((p.run ms).store.channel.step (Memory.worker now))
          (p.run ms).store.shared = _
        rw [hchannel]
        exact hstore
      | assign | submit => exact hlast.elim
  exact hrun.1

end Pipeline

end Notebook
