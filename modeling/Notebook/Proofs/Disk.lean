import Mathlib.Data.List.Basic
import Mathlib.Data.List.TakeWhile
import Notebook.Disk
import Notebook.Proofs.Basic
import Notebook.Proofs.Text.Words

/-!
# Files that were written

Where a file was written there is one, also under the tidy form of its path.  That form leads along
the same names, without those that stay in place, and it is no longer than the path.
-/

namespace Notebook.Disk

/-! ### Names of a path -/

theorem notMem_of_mem_splitOn {c : Letter} {cs l : List Letter} (h : l ∈ cs.splitOn c) : c ∉ l := by
  rw [List.splitOn_eq_splitOnP] at h
  intro hc
  simpa using forall_of_mem_splitOnP h c hc

theorem of_mem_names {path n : Text} (h : n ∈ names path) : n ≠ "" ∧ .char '/' ∉ n.toList := by
  obtain ⟨hmem, hne⟩ := List.mem_filter.mp h
  obtain ⟨l, hl, rfl⟩ := List.mem_map.mp hmem
  rw [Text.toList_ofList]
  exact ⟨by simpa using hne, notMem_of_mem_splitOn hl⟩

theorem names_slash (s : Text) : names ("/" ++ s) = names s := by
  have hpieces :
      Text.pieces (.char '/') ("/" ++ s).toList = [] :: Text.pieces (.char '/') s.toList := by
    rw [Text.toList_append]
    exact List.splitOn_append_cons_self [] s.toList
  rw [names, hpieces, List.map_cons, List.filter_cons_of_neg (by decide)]
  rfl

theorem names_intercalate {ns : List Text} (h : ∀ n ∈ ns, n ≠ "" ∧ .char '/' ∉ n.toList) :
    names (Text.intercalate "/" ns) = ns := by
  rcases eq_or_ne ns [] with rfl | hne
  · rfl
  · have hpieces :
        Text.pieces (.char '/') (Text.intercalate "/" ns).toList = ns.map Text.toList := by
      rw [Text.toList_intercalate]
      refine List.splitOn_intercalate (Letter.char '/') ?_ (by simpa using hne)
      rintro l hl
      obtain ⟨n, hn, rfl⟩ := List.mem_map.mp hl
      exact (h n hn).2
    have hself : (fun n : Text => Text.ofList n.toList) = id :=
      funext Text.ofList_toList
    rw [names, hpieces, List.map_map]
    show (ns.map fun n => Text.ofList n.toList).filter _ = _
    rw [hself, List.map_id, List.filter_eq_self]
    exact fun n hn => by simpa using (h n hn).1

/-- The tidy form of a path has the same names but for lone points. -/
theorem names_tidy (path : Text) :
    names (tidy path) = (names path).filter (fun n : Text => n ≠ ".") := by
  have hnames : names (Text.intercalate "/" ((names path).filter (fun n : Text => n ≠ "."))) =
      (names path).filter (fun n : Text => n ≠ ".") :=
    names_intercalate fun n hn => of_mem_names (List.mem_of_mem_filter hn)
  unfold tidy
  split
  · rw [names_slash, hnames]
  · rw [Text.empty_append, hnames]

/-! ### The length of a path -/

theorem intercalate_sublist {sep : List Letter} {ls ms : List (List Letter)} (h : ls.Sublist ms) :
    (sep.intercalate ls).Sublist (sep.intercalate ms) := by
  induction h with
  | slnil => exact List.Sublist.refl _
  | @cons ls ms l h ih =>
    rcases eq_or_ne ms [] with rfl | hne
    · rw [List.sublist_nil.mp h]
      exact List.nil_sublist _
    · rw [List.intercalate_cons_of_ne_nil hne]
      exact ih.trans (List.sublist_append_right _ _)
  | @cons_cons ls ms l h ih =>
    rcases eq_or_ne ls [] with rfl | hne
    · rcases eq_or_ne ms [] with rfl | hne
      · exact List.Sublist.refl _
      · rw [List.intercalate_singleton, List.intercalate_cons_of_ne_nil hne, List.append_assoc]
        exact List.sublist_append_left _ _
    · have hne' : ms ≠ [] := by
        rintro rfl
        exact hne (List.sublist_nil.mp h)
      rw [List.intercalate_cons_of_ne_nil hne, List.intercalate_cons_of_ne_nil hne']
      exact ih.append_left _

/-- A tidy path is what is left of a path when characters are taken away. -/
theorem tidy_sublist (path : Text) : (tidy path).toList.Sublist path.toList := by
  have hmap (ls : List (List Letter)) : (ls.map Text.ofList).map Text.toList = ls := by
    rw [List.map_map]
    exact List.map_id ls
  have hkept (s : Text) :
      (((names s).filter (fun n : Text => n ≠ ".")).map Text.toList).Sublist
        (Text.pieces (.char '/') s.toList) := by
    have hsub : ((names s).filter (fun n : Text => n ≠ ".")).Sublist
        ((Text.pieces (.char '/') s.toList).map Text.ofList) :=
      List.filter_sublist.trans List.filter_sublist
    have := hsub.map Text.toList
    rwa [hmap] at this
  have hjoined (s : Text) :
      (Text.intercalate "/" ((names s).filter (fun n : Text => n ≠ "."))).toList.Sublist
        s.toList := by
    rw [Text.toList_intercalate]
    exact (intercalate_sublist (hkept s)).trans (by
      rw [show ("/" : Text).toList = [.char '/'] from rfl, Text.pieces, ← List.splitOn_eq_splitOnP,
        List.intercalate_splitOn])
  unfold tidy
  split
  · next hhead =>
    obtain ⟨cs, hcs⟩ : ∃ cs, path.toList = .char '/' :: cs := by
      cases hpath : path.toList with
      | nil => simp [hpath] at hhead
      | cons c cs =>
        simp only [hpath, List.head?_cons, Option.some.injEq] at hhead
        exact ⟨cs, by rw [hhead]⟩
    obtain rfl : path = "/" ++ Text.ofList cs := by
      apply Text.ext
      rw [hcs, Text.toList_append, Text.toList_ofList cs]
      rfl
    rw [names_slash, Text.toList_append, Text.toList_append]
    exact (hjoined (Text.ofList cs)).append_left _
  · rw [Text.empty_append]
    exact hjoined path

theorem size_le_of_sublist {s t : Text} (h : s.toList.Sublist t.toList) : size s ≤ size t := by
  unfold size
  generalize s.toList = ls at h
  generalize t.toList = ms at h
  induction h with
  | slnil => exact Nat.le_refl _
  | cons l h ih => exact Nat.le_add_left_of_le ih
  | cons_cons l h ih => exact Nat.add_le_add_left ih _

theorem size_tidy_le (path : Text) : size (tidy path) ≤ size path :=
  size_le_of_sublist (tidy_sublist path)

/-! ### Places -/

variable {d : Disk}

theorem lookup_point {here : List Text} (h : d.node? here = some .directory) :
    d.lookup here "." = .ok .directory := by
  have hlen : ¬ maxNameSize < size "." := by decide
  rw [lookup, if_neg hlen]
  simp only [place, if_true, h]

/-- Names lead from one directory to another. -/
theorem node?_enter {ns : List Text} {here there : List Text}
    (hhere : d.node? here = some .directory) (h : d.enter here ns = .ok there) :
    d.node? there = some .directory := by
  induction ns generalizing here with
  | nil =>
    cases h
    exact hhere
  | cons n ns ih =>
    unfold enter at h
    split at h
    · next hl =>
      refine ih ?_ h
      unfold lookup at hl
      split at hl
      · cases hl
      · split at hl
        · next e he =>
          cases hl
          exact he
        · cases hl
    · cases h
    · cases h

/-- Lone points can be left out. -/
theorem enter_filter {ns : List Text} {here there : List Text}
    (h : d.enter here ns = .ok there) :
    d.enter here (ns.filter (fun n : Text => n ≠ ".")) = .ok there := by
  induction ns generalizing here with
  | nil => exact h
  | cons n ns ih =>
    unfold enter at h
    split at h
    · next hl =>
      by_cases hn : n = "."
      · subst hn
        rw [List.filter_cons_of_neg (by simp)]
        exact ih h
      · rw [List.filter_cons_of_pos (by simpa using hn), enter, hl]
        exact ih h
    · cases h
    · cases h

theorem isPath_iff {path : Text} :
    isPath path = true ↔ ∀ l ∈ path.toList, isEncodable l = true ∧ l ≠ '\x00' := by
  rw [isPath, Option.isNone_iff_eq_none, refusal?]
  split
  · next hdrop =>
    rw [List.dropWhile_eq_nil_iff] at hdrop
    simp only [List.contains_eq_mem, decide_eq_true_eq, ite_eq_right_iff, reduceCtorEq, imp_false]
    exact ⟨fun hzero l hl => ⟨hdrop l hl, fun h => hzero (h ▸ hl)⟩,
      fun h hzero => (h _ hzero).2 rfl⟩
  · next hdrop =>
    simp only [reduceCtorEq, false_iff]
    exact fun h => hdrop (List.dropWhile_eq_nil_iff.mpr fun l hl => (h l hl).1)

theorem locate_eq_ok_iff {path n : Text} {here : List Text} :
    d.locate path = .ok (here, n) ↔ isPath path = true ∧ path ≠ "" ∧
      size path ≤ maxPathSize ∧ d.enter [] (names path).dropLast = .ok here ∧
      (names path).getLast?.getD "." = n := by
  rw [isPath, Option.isNone_iff_eq_none]
  unfold locate
  split
  · next h => simp [h]
  · split
    · next h => simp [Text.isEmpty_iff.mp h]
    · next hpath hempty =>
      have hne : path ≠ "" := fun h => hempty (Text.isEmpty_iff.mpr h)
      split
      · next h => simp [Nat.not_le.mpr h]
      · next hlen =>
        cases he : d.enter [] (names path).dropLast with
        | error e => simp [he, Except.map]
        | ok there => simp_all [Except.map]

theorem isPath_tidy {path : Text} (h : isPath path = true) : isPath (tidy path) = true :=
  isPath_iff.mpr fun l hl => isPath_iff.mp h l ((tidy_sublist path).subset hl)

/-- A path that ends in a name leads to the same place in its tidy form. -/
theorem locate_tidy {path n : Text} {here : List Text} (h : d.locate path = .ok (here, n))
    (hn : n ≠ ".") : d.locate (tidy path) = .ok (here, n) := by
  obtain ⟨hpath, -, hlen, henter, hlast⟩ := locate_eq_ok_iff.mp h
  have hlast' : (names path).getLast? = some n := by
    cases hl : (names path).getLast? with
    | none =>
      rw [hl] at hlast
      exact absurd hlast.symm hn
    | some m =>
      rw [hl] at hlast
      exact congrArg some hlast
  have hsplit : (names path).dropLast ++ [n] = names path :=
    List.dropLast_append_getLast? n hlast'
  have hnames :
      names (tidy path) = (names path).dropLast.filter (fun n : Text => n ≠ ".") ++ [n] := by
    rw [names_tidy, ← hsplit, List.filter_append, List.dropLast_concat]
    simp [hn]
  refine locate_eq_ok_iff.mpr ⟨isPath_tidy hpath, ?_,
    Nat.le_trans (size_tidy_le path) hlen, ?_, ?_⟩
  · rintro h0
    rw [h0] at hnames
    exact List.concat_ne_nil _ _ ((show names "" = [] by decide) ▸ hnames).symm
  · rw [hnames, List.dropLast_concat]
    exact enter_filter henter
  · rw [hnames]
    simp

/-- Where a file can be written, its directory and its name are known. -/
theorem writable_eq_ok {path : Text} {ps : List Text} (h : d.writable path = .ok ps) :
    ∃ here n, d.locate path = .ok (here, n) ∧ n ≠ "." ∧ asksDirectory path = false ∧
      ps = place here n ∧
      ((∃ f, d.lookup here n = .ok (.file f)) ∨ d.lookup here n = .error .notFound) := by
  obtain ⟨⟨here, n⟩, hlocate, h⟩ := except_bind_eq_ok_iff.mp h
  have hdir : d.node? here = some .directory :=
    node?_enter (by simp [node?]) (locate_eq_ok_iff.mp hlocate).2.2.2.1
  simp only at h
  split at h
  · cases h
  · next hask =>
    have hcase : ps = place here n ∧
        ((∃ f, d.lookup here n = .ok (.file f)) ∨ d.lookup here n = .error .notFound) := by
      split at h
      · cases h
      · next f hf =>
        cases h
        exact ⟨rfl, .inl ⟨f, hf⟩⟩
      · next hf =>
        cases h
        exact ⟨rfl, .inr hf⟩
      · cases h
    refine ⟨here, n, hlocate, ?_, by simpa using hask, hcase⟩
    rintro rfl
    rw [lookup_point hdir] at hcase
    simp at hcase

/-- After a file was written there is one at its path. -/
theorem holds_of_write {path : Text} {content : Text.Decoded} {d' : Disk}
    (h : d.write path content = .ok d') : d'.holds path = .ok true := by
  unfold write at h
  split at h
  · next ps hw =>
    cases h
    obtain ⟨here, n, hlocate, hn, -, rfl, hfile⟩ := writable_eq_ok hw
    obtain ⟨hdir, hlookup⟩ := lookup_set content hfile
    have hset : (d.set (place here n) (.file content)).locate path = .ok (here, n) :=
      locate_set hdir hlocate
    rw [holds, entryAt, locate_tidy hset hn]
    simp only [Except.bind, hlookup]
  · cases h

/-- Where a file was written another one can be written in its place. -/
theorem writable_set {path : Text} {ps : List Text} {content : Text.Decoded}
    (h : d.writable path = .ok ps) : (d.set ps (.file content)).writable path = .ok ps := by
  obtain ⟨here, n, hlocate, -, hask, rfl, hfile⟩ := writable_eq_ok h
  obtain ⟨hdir, hlookup⟩ := lookup_set content hfile
  have hset : (d.set (place here n) (.file content)).locate path = .ok (here, n) :=
    locate_set hdir hlocate
  simp [writable, hset, Except.bind, hask, hlookup]

theorem isSystems_of_lookup {here : List Text} {n : Text} {reason : FileReason}
    (h : d.lookup here n = .error reason) : reason.isSystems = true := by
  unfold lookup at h
  split at h
  · cases h
    rfl
  · split at h
    · cases h
    · cases h
      rfl

theorem isSystems_of_enter {here ns : List Text} {reason : FileReason}
    (h : d.enter here ns = .error reason) : reason.isSystems = true := by
  induction ns generalizing here with
  | nil => cases h
  | cons n ns ih =>
    unfold enter at h
    split at h
    · exact ih h
    · cases h
      rfl
    · next hlookup =>
      cases h
      exact isSystems_of_lookup hlookup

theorem isSystems_of_refusal? {path : Text} {reason : FileReason}
    (h : refusal? path = some reason) : reason.isSystems = false := by
  unfold refusal? at h
  split at h
  · split at h
    · cases h
      rfl
    · cases h
  · cases h
    rfl

theorem isSystems_of_locate {path : Text} {reason : FileReason}
    (h : d.locate path = .error reason) : reason.isSystems = isPath path := by
  unfold locate at h
  rw [isPath]
  split at h
  · next hrefusal =>
    cases h
    rw [hrefusal, isSystems_of_refusal? hrefusal]
    rfl
  · next hrefusal =>
    rw [hrefusal]
    split at h
    · cases h
      rfl
    · split at h
      · cases h
        rfl
      · exact isSystems_of_enter (except_map_eq_error_iff.mp h)

/-- The system refuses to write just to paths that it can have. -/
theorem isSystems_of_writable {path : Text} {reason : FileReason}
    (h : d.writable path = .error reason) : reason.isSystems = isPath path := by
  unfold writable at h
  cases hlocate : d.locate path with
  | error r =>
    rw [hlocate] at h
    cases h
    exact isSystems_of_locate hlocate
  | ok r =>
    have hpath : isPath path = true := (locate_eq_ok_iff.mp hlocate).1
    rw [hpath]
    simp only [hlocate, Except.bind] at h
    split at h
    · cases h
      rfl
    · split at h
      · cases h
        rfl
      · cases h
      · cases h
      · next hlookup =>
        cases h
        exact isSystems_of_lookup hlookup

end Notebook.Disk
