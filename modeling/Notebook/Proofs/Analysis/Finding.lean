import Notebook.Analysis.Pipeline
import Notebook.Proofs.Fields.Read
import Notebook.Proofs.Store.Filed

/-!
# What a finding does to the notes

A job of an analysis comes to a finding: tags with confidences, or an embedding.  It is written down
on the note that is filed under the id of the job, if there is one, and touches no other.
-/

namespace Notebook

/-! ### One record changed in its place -/

namespace Keyed

variable {α : Type}

/-- The record under a key, if there is one, is changed. -/
def adjust (key : Text) (f : α → α) : Keyed α → Keyed α
  | [] => []
  | (k, a) :: r => if k = key then (k, f a) :: r else (k, a) :: adjust key f r

theorem keys_adjust (key : Text) (f : α → α) (r : Keyed α) : (adjust key f r).keys = r.keys := by
  unfold keys
  induction r with
  | nil => rfl
  | cons p r ih =>
    unfold adjust
    split
    · rfl
    · simp [ih]

theorem get?_adjust (key key' : Text) (f : α → α) (r : Keyed α) :
    get? key' (adjust key f r) =
      if key' = key then (get? key' r).map f else get? key' r := by
  induction r with
  | nil => simp [adjust]
  | cons p r ih =>
    obtain ⟨k, a⟩ := p
    unfold adjust
    by_cases hk : k = key
    · subst hk
      by_cases hkey : k = key'
      · simp [get?, hkey]
      · simp [get?, hkey, Ne.symm hkey]
    · by_cases hkey : k = key'
      · subst hkey
        simp [get?, hk]
      · simp [get?, hk, hkey, ih]

theorem adjust_of_get?_eq_none {key : Text} {r : Keyed α} (h : get? key r = none) (f : α → α) :
    adjust key f r = r := by
  induction r with
  | nil => rfl
  | cons p r ih =>
    obtain ⟨k, a⟩ := p
    unfold get? at h
    split at h
    · cases h
    · next hk => rw [adjust, if_neg hk, ih h]

theorem insert_of_get? {key : Text} {r : Keyed α} {a : α} (h : get? key r = some a)
    (f : α → α) : insert key (f a) r = adjust key f r := by
  induction r with
  | nil => cases h
  | cons p r ih =>
    obtain ⟨k, b⟩ := p
    unfold get? at h
    split at h
    · next hk =>
      cases h
      simp [insert, adjust, hk]
    · next hk => simp [insert, adjust, hk, ih h]

/-- What the change of a record keeps holds of all of them afterwards. -/
theorem forall_values_adjust {P : α → Prop} {key : Text} {f : α → α} {r : Keyed α}
    (hr : ∀ a ∈ r.values, P a) (hf : ∀ a, P a → P (f a)) : ∀ a ∈ (adjust key f r).values, P a := by
  induction r with
  | nil => exact hr
  | cons p r ih =>
    obtain ⟨ha, hr⟩ := List.forall_mem_cons.mp hr
    unfold adjust
    split
    · exact List.forall_mem_cons.mpr ⟨hf _ ha, hr⟩
    · exact List.forall_mem_cons.mpr ⟨ha, ih hr⟩

theorem insert_insert (key : Text) (a b : α) (r : Keyed α) :
    insert key b (insert key a r) = insert key b r := by
  induction r with
  | nil => simp [insert]
  | cons p r ih =>
    obtain ⟨k, c⟩ := p
    by_cases hk : k = key <;> simp [insert, hk, ih]

end Keyed

/-! ### Findings -/

inductive Finding
  /-- Candidates with their confidences, found at a time. -/
  | tags (candidates : List Text) (confidences : List Json) (time : Moment)
  | embedding (g : Option Grid)

namespace Finding

def actions : Finding → List Action
  | .tags candidates confidences time => [.suggest candidates confidences time]
  | .embedding g => [.embed g]

/-- Is the finding written down to its end?  It is not if a confidence is no number. -/
def completes (n : Note) : Finding → Bool
  | .tags candidates confidences _ =>
    match Fields.list Fields.number
        (.arr ((Memory.Change.newTags n.tags candidates confidences).map Prod.snd)) with
    | .ok _ => true
    | _ => false
  | .embedding _ => true

/-- The note with the finding written down at the moment `now`. -/
def write (now : Moment) (f : Finding) (n : Note) : Note :=
  match f with
  | .tags candidates confidences time =>
    let kept := Memory.Change.newTags n.tags candidates confidences
    match Fields.list Fields.number (.arr (kept.map Prod.snd)) with
    | .ok xs =>
      { n with
        suggestedTags := kept.map Prod.fst
        tagConfidences := xs
        lastAnalyzed := some time.zoned
        modified := now.zoned }
    | _ => { n with suggestedTags := kept.map Prod.fst }
  | .embedding g => { n with embedding := g, modified := now.zoned }

end Finding

/-- Confidences that are all read as numbers are written to the end. -/
theorem Finding.completes_of_numbers {candidates : List Text} {confidences : List Json}
    (h : ∀ v ∈ confidences, ∃ x, Fields.number v = .ok x) (time : Moment) (n : Note) :
    (tags candidates confidences time).completes n = true := by
  have hnew : ∀ v ∈ (Memory.Change.newTags n.tags candidates confidences).map Prod.snd,
      ∃ x, Fields.number v = .ok x := by
    intro v hv
    obtain ⟨q, hq, rfl⟩ := List.mem_map.mp hv
    exact h _ (List.of_mem_zip (List.mem_filter.mp hq).1).2
  obtain ⟨xs, hxs⟩ := Fields.exists_list hnew
  simp only [completes, hxs]

/-- The candidates that the note does not carry are written down with the numbers given for them;
candidates without a number, and numbers without a candidate, are left out. -/
theorem Finding.write_tags_map_float (now : Moment) (candidates : List Text) (ys : List Float)
    (time : Moment) (n : Note) :
    (tags candidates (ys.map .float) time).write now n =
      { n with
        suggestedTags := ((candidates.zip ys).filter fun q => q.1 ∉ n.tags).map Prod.fst
        tagConfidences := ((candidates.zip ys).filter fun q => q.1 ∉ n.tags).map Prod.snd
        lastAnalyzed := some time.zoned
        modified := now.zoned } := by
  let kept := (candidates.zip ys).filter fun q => q.1 ∉ n.tags
  have hkept : Memory.Change.newTags n.tags candidates (ys.map .float) =
      kept.map (Prod.map id Json.float) := by
    rw [Memory.Change.newTags, List.zip_map_right, List.filter_map]
    congr 1
    refine List.filter_congr fun q _ => ?_
    simp
  have htags : (kept.map (Prod.map id Json.float)).map Prod.fst = kept.map Prod.fst := by
    rw [List.map_map]
    rfl
  have hconfidences : (kept.map (Prod.map id Json.float)).map Prod.snd =
      (kept.map Prod.snd).map Json.float := by
    rw [List.map_map, List.map_map]
    rfl
  have hread : Fields.list Fields.number (.arr ((kept.map Prod.snd).map .float)) =
      .ok (kept.map Prod.snd) := Fields.list_map fun _ _ => rfl
  simp only [write, hkept, htags, hconfidences, hread]
  rfl

/-- A source that gives one number for each tag. -/
theorem Finding.write_tags_of_floats (now : Moment) {candidates : List Text} {ys : List Float}
    (hlength : ys.length = candidates.length) (time : Moment) (n : Note) :
    (tags candidates (ys.map .float) time).write now n =
      { n with
        suggestedTags := candidates.filter (· ∉ n.tags)
        tagConfidences := ((candidates.zip ys).filter fun q => q.1 ∉ n.tags).map Prod.snd
        lastAnalyzed := some time.zoned
        modified := now.zoned } := by
  have htags : ((candidates.zip ys).filter fun q => q.1 ∉ n.tags).map Prod.fst =
      candidates.filter (· ∉ n.tags) := by
    conv_rhs => rw [← List.map_fst_zip (Nat.le_of_eq hlength.symm), List.filter_map]
    rfl
  rw [write_tags_map_float, htags]

namespace Memory

/-- The finding is dropped if the note is gone. -/
theorem change_finding_of_get?_eq_none {m : Memory} {id : Text} (h : m.notes.get? id = none)
    (now : Moment) (f : Finding) : m.change now id f.actions = (m, []) := by
  simp [change, h]

theorem change_finding {m : Memory} {id : Text} {n : Note} (h : m.notes.get? id = some n)
    (now : Moment) (f : Finding) :
    m.change now id f.actions =
      (if f.completes n then
        ({ m with notes := Keyed.adjust id (f.write now) m.notes } : Memory).persist
      else { m with notes := Keyed.adjust id (f.write now) m.notes }, []) := by
  have hinsert := Keyed.insert_of_get? h (f.write now)
  unfold change
  rw [h]
  cases f with
  | embedding g =>
    simp only [Finding.actions, Change.acts, Change.act, Change.put, if_true, Keyed.insert_insert,
      Finding.completes, ← hinsert]
    rfl
  | tags candidates confidences time =>
    simp only [Finding.actions, Change.acts, Change.act, Change.put, if_true,
      Finding.completes, ← hinsert, Finding.write]
    cases hread : Fields.list Fields.number
        (.arr ((Change.newTags n.tags candidates confidences).map Prod.snd)) with
    | ok xs => simp only [if_true, Keyed.insert_insert]; rfl
    | faulty fs => simp
    | broken b => simp

/-- A finding changes the note that is filed under the id, and submits nothing. -/
theorem notes_change_finding (m : Memory) (now : Moment) (id : Text) (f : Finding) :
    (m.change now id f.actions).1.notes = Keyed.adjust id (f.write now) m.notes ∧
      (m.change now id f.actions).2 = [] := by
  cases h : m.notes.get? id with
  | none =>
    rw [change_finding_of_get?_eq_none h]
    exact ⟨(Keyed.adjust_of_get?_eq_none h _).symm, rfl⟩
  | some n =>
    rw [change_finding h]
    refine ⟨?_, rfl⟩
    simp only
    split
    · exact notes_persist _
    · rfl

end Memory

/-! ### Jobs of an analysis -/

namespace Pipeline

/-- What a job comes to at the moment `now`, if it does not fail. -/
def finding? (now : Moment) (p : Pipeline) (j : AnalysisJob) : Option Finding :=
  match j.task with
  | .tags =>
    (p.confidences.take (entities p.maxTags j.text)).1.map
      (.tags (entities p.maxTags j.text) · now)
  | .embedding =>
    match p.engine.embed j.text with
    | .ok g => some (.embedding g)
    | .error _ => none

theorem outcome_eq (now : Moment) (p : Pipeline) (j : AnalysisJob) :
    (p.outcome now j).1 = (p.finding? now j).map Finding.actions := by
  unfold outcome finding?
  cases j.task with
  | tags => simp [Option.map_map, Function.comp_def, Finding.actions]
  | embedding =>
    simp only
    cases p.engine.embed j.text <;> rfl

/-- On a store that stands ready a job is done and its finding written down at once. -/
theorem memory_runAt {p : Pipeline} (hp : p.store.Ready) {i : Nat} {j : AnalysisJob}
    (hj : p.pending[i]? = some j) (now : Moment) :
    (p.runAt now i).store.Ready ∧
      (p.runAt now i).store.memory = ((p.finding? now j).map fun f =>
        (p.store.memory.change now j.id f.actions).1).getD p.store.memory := by
  have hsame : outcome now { p with pending := p.pending.eraseIdx i } j = p.outcome now j := rfl
  simp only [runAt, hj, perform, settle, hsame, outcome_eq]
  cases p.finding? now j with
  | none =>
    have hrunning : p.store.channel.running = true := hp.isOpen
    simp only [Option.map_none, Store.settle, Channel.settle, hrunning, if_true, hp.idle,
      Channel.drain_nil]
    exact ⟨⟨rfl, rfl⟩, rfl⟩
  | some f =>
    have hnothing := (Memory.notes_change_finding p.store.memory now j.id f).2
    simp only [Option.map_some, Store.settle_change_of_ready hp now j.id f.actions hnothing]
    exact ⟨⟨hp.isOpen, hnothing⟩, rfl⟩

end Pipeline

end Notebook
