import Notebook.Proofs.Basic
import Notebook.Proofs.Store.Filed
import Notebook.Proofs.Store.Sound

/-!
# What is loaded

A store begins with the notes that its file lists.  Where the file has several notes of one id, the
last of them is kept, in the place of the first.
-/

namespace Notebook

namespace Memory

/-- The notes that are listed at a path.  Without a path, and where no file is there yet, there are
none. -/
inductive Lists (now : Moment) (disk : Disk) : Option Text → List Note → Prop
  | fileless : Lists now disk none []
  | absent {p : Text} (hp : disk.holds p = .ok false) : Lists now disk (some p) []
  | file {p : Text} {content : Text.Decoded} {ns : List Note} (hp : disk.holds p = .ok true)
      (hread : disk.read p = .ok content) (hns : notesOfFile now content = .ok ns) :
      Lists now disk (some p) ns

/-- A record can tell the notes that are listed when the time can be told. -/
theorem Lists.expressible {now : Moment} {disk : Disk} {path : Option Text} {ns : List Note}
    (h : Lists now disk path ns) (hnow : now.Expressible) : ∀ n ∈ ns, n.Expressible := by
  cases h with
  | fileless | absent => exact fun n hn => (List.not_mem_nil hn).elim
  | file _ _ hns => exact expressible_of_notesOfFile hnow hns

theorem load_eq_ok_iff {now : Moment} {path : Option Text} {disk : Disk} {m : Memory} :
    load now path disk = .ok m ↔
      ∃ ns, Lists now disk path ns ∧ m = ⟨filed ns, disk, path, .idle⟩ := by
  constructor
  · intro h
    cases path with
    | none =>
      cases h
      exact ⟨[], .fileless, rfl⟩
    | some p =>
      unfold load at h
      simp only at h
      split at h
      · cases h
      · next hp =>
        cases h
        exact ⟨[], .absent hp, rfl⟩
      · next hp =>
        split at h
        · cases h
        · next content hread =>
          obtain ⟨ns, hns, rfl⟩ := except_map_eq_ok_iff.mp h
          exact ⟨ns, .file hp hread hns, rfl⟩
  · rintro ⟨ns, hlists, rfl⟩
    cases hlists with
    | fileless => rfl
    | absent hp => simp only [load, hp]; rfl
    | file hp hread hns => simp only [load, hp, hread, hns, Except.map]

/-- One note of each id, in the order in which the ids came: the last one. -/
def latest (ns : List Note) : List Note :=
  (ns.map (·.id)).eraseDups.filterMap fun i => ns.reverse.find? (·.id = i)

theorem values_filed_eq_latest (ns : List Note) : (filed ns).values = latest ns := by
  have hkeys : (filed ns).keys = (ns.map (·.id)).eraseDups := by
    rw [filed, Keyed.keys_ofPairs, List.map_map]
    rfl
  rw [Keyed.values_eq_filterMap (filed_filed ns).nodup, hkeys, latest]
  refine List.filterMap_congr fun i _ => ?_
  rw [filed, Keyed.get?_ofPairs, ← List.map_reverse, List.find?_map, Option.map_map]
  exact Option.map_id'

end Memory

/-- A store can be opened just where notes are listed. -/
theorem Store.open?_eq_ok_iff {now : Moment} {path : Option Text} {disk : Disk} {shared : Bool}
    {s : Store} : open? now path disk shared = .ok s ↔
      ∃ ns, Memory.Lists now disk path ns ∧
        s = ofMemory ⟨Memory.filed ns, disk, path, .idle⟩ shared := by
  rw [open?, except_map_eq_ok_iff]
  constructor
  · rintro ⟨m, hm, rfl⟩
    obtain ⟨ns, hns, rfl⟩ := Memory.load_eq_ok_iff.mp hm
    exact ⟨ns, hns, rfl⟩
  · rintro ⟨ns, hns, rfl⟩
    exact ⟨_, Memory.load_eq_ok_iff.mpr ⟨ns, hns, rfl⟩, rfl⟩

end Notebook
