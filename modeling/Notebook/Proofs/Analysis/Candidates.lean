import Notebook.Analysis.Entities
import Notebook.Proofs.Keyed
import Notebook.Proofs.Ranking

/-!
# Candidates of a text

The words of a text begin with a letter and go on with letters, apostrophes and hyphens.  The
candidates are tallied under names that are made of such words, so no text has a candidate twice.
-/

namespace Notebook

namespace Entities

/-! ### Words -/

/-- A letter, and behind it letters, apostrophes and hyphens. -/
def IsWord : List Letter → Prop
  | [] => False
  | c :: r => isLetter c = true ∧ ∀ x ∈ r, isInner x = true

theorem isWord_concat {word : List Letter} {c : Letter} (hword : word = [] ∨ IsWord word)
    (hc : (isLetter c || (!word.isEmpty && isInner c)) = true) : IsWord (word ++ [c]) := by
  have hinner : isInner c = true := by
    rcases Bool.or_eq_true_iff.mp hc with h | h
    · simp [isInner, h]
    · exact (Bool.and_eq_true_iff.mp h).2
  rcases hword with rfl | hword
  · exact ⟨by simpa using hc, nofun⟩
  · cases word with
    | nil => cases hword
    | cons a r =>
      refine ⟨hword.1, fun x hx => ?_⟩
      rcases List.mem_append.mp hx with hx | hx
      · exact hword.2 x hx
      · rwa [List.mem_singleton.mp hx]

theorem isWord_of_mem_closeWord {word w : List Letter} {ps : List Piece}
    (hword : word = [] ∨ IsWord word) (h : Piece.word w ∈ closeWord word ps) :
    IsWord w ∨ Piece.word w ∈ ps := by
  unfold closeWord at h
  split at h
  · exact .inr h
  · next hne =>
    refine (List.mem_cons.mp h).imp_left fun hw => ?_
    cases hw
    exact hword.resolve_left (by simpa using hne)

theorem isWord_of_mem_piecesFrom {word cs w : List Letter} (hword : word = [] ∨ IsWord word)
    (h : Piece.word w ∈ piecesFrom word cs) : IsWord w := by
  induction cs generalizing word with
  | nil => exact (isWord_of_mem_closeWord hword h).resolve_right List.not_mem_nil
  | cons c cs ih =>
    unfold piecesFrom at h
    split at h
    · next hc => exact ih (.inr (isWord_concat hword hc)) h
    · rcases isWord_of_mem_closeWord hword h with hw | hps
      · exact hw
      · split at hps
        · rcases List.mem_cons.mp hps with hps | hps
          · cases hps
          · exact ih (.inl rfl) hps
        · exact ih (.inl rfl) hps

theorem isWord_of_mem_pieces {cs w : List Letter} (h : Piece.word w ∈ pieces cs) : IsWord w :=
  isWord_of_mem_piecesFrom (.inl rfl) h

/-! ### Tallies -/

/-- One word or more. -/
structure IsName (name : List (List Letter)) : Prop where
  ne_nil : name ≠ []
  isWord : ∀ w ∈ name, IsWord w

/-- A name that is counted has three characters or more, and is no stopword in small letters. -/
structure IsCandidate (name : List (List Letter)) : Prop extends IsName name where
  length_le : 3 ≤ (spaced name).length
  not_stopword : isStopword (small (spaced name)) = false

theorem isName_singleton {w : List Letter} (h : IsWord w) : IsName [w] :=
  ⟨List.cons_ne_nil _ _, fun _ hv => List.mem_singleton.mp hv ▸ h⟩

section

variable {P : Tally → Prop}

/-- The open run of a state is made of words, and its tally has the property. -/
structure State.Holds (P : Tally → Prop) (s : State) : Prop where
  run : ∀ w ∈ s.run, IsWord w
  tally : P s.tally

variable (hadd : ∀ name, IsCandidate name → ∀ t, P t → P (t.add (titleCase name)))

include hadd

theorem countName_induction {t : Tally} (ht : P t) {name : List (List Letter)} (h : IsName name) :
    P (countName name t) := by
  unfold countName
  split
  · exact ht
  · next hcounts =>
    obtain ⟨hlength, hstop⟩ := not_or.mp (mt Bool.or_eq_true_iff.mpr hcounts)
    exact hadd name ⟨h, by simpa using hlength, by simpa using hstop⟩ t ht

theorem countWord_induction {t : Tally} (ht : P t) {w : List Letter} (h : IsWord w) :
    P (countWord w t) := by
  unfold countWord
  split
  · exact ht
  · next hcounts =>
    obtain ⟨hlength, hstop⟩ := not_or.mp (mt Bool.or_eq_true_iff.mpr hcounts)
    have hlong : 3 ≤ w.length := by
      have hfour : 4 ≤ w.length := by simpa using hlength
      omega
    have hword : isStopword (small w) = false := by simpa using hstop
    exact hadd [w] ⟨isName_singleton h, hlong, hword⟩ t ht

theorem State.Holds.closeRun {s : State} (h : s.Holds P) : (closeRun s).Holds P := by
  refine ⟨nofun, ?_⟩
  obtain ⟨hrun, htally⟩ := h
  unfold Entities.closeRun
  simp only
  split
  · exact htally
  · next w hw =>
    rw [hw] at hrun
    have hword : IsWord w := hrun w List.mem_cons_self
    split
    · exact countWord_induction hadd htally hword
    · exact countName_induction hadd htally (isName_singleton hword)
  · next hne _ => exact countName_induction hadd htally ⟨hne, hrun⟩

theorem State.Holds.step {s : State} (h : s.Holds P) {p : Piece}
    (hp : ∀ w, p = .word w → IsWord w) : (step s p).Holds P := by
  cases p with
  | mark c =>
    have hclosed := h.closeRun hadd
    exact ⟨hclosed.run, hclosed.tally⟩
  | word w =>
    unfold Entities.step
    simp only
    split
    · refine ⟨fun v hv => ?_, h.tally⟩
      rcases List.mem_append.mp hv with hv | hv
      · exact h.run v hv
      · exact List.mem_singleton.mp hv ▸ hp w rfl
    · have hclosed := h.closeRun hadd
      exact ⟨hclosed.run, countWord_induction hadd hclosed.tally (hp w rfl)⟩

/-- What holds of the empty tally, and goes on to hold when a name is counted, holds of the tally of
every text. -/
theorem tally_induction (hnil : P []) (cs : List Letter) : P (tally cs) := by
  have hfold : ∀ ps : List Piece, (∀ w, Piece.word w ∈ ps → IsWord w) →
      (ps.foldl Entities.step start).Holds P := by
    intro ps hps
    induction ps using List.reverseRecOn with
    | nil => exact ⟨nofun, hnil⟩
    | append_singleton ps p ih =>
      rw [List.foldl_append]
      have hbefore := ih fun w hw => hps w (List.mem_append_left _ hw)
      exact hbefore.step hadd fun w hw => hps w (by simp [hw])
  exact ((hfold (pieces cs) fun w hw => isWord_of_mem_pieces hw).closeRun hadd).tally

end

theorem nodup_keys_tally (cs : List Letter) : (tally cs).keys.Nodup :=
  tally_induction (P := fun t => t.keys.Nodup)
    (fun _ _ _ ht => Keyed.nodup_keys_insert ht _ _) List.nodup_nil cs

/-- Everything that is tallied is a name that counts, with its words capitalized. -/
theorem exists_name_of_mem_keys_tally {cs : List Letter} {key : Text}
    (h : key ∈ (tally cs).keys) : ∃ name, IsCandidate name ∧ key = titleCase name := by
  refine tally_induction
    (P := fun t => ∀ key ∈ t.keys, ∃ name, IsCandidate name ∧ key = titleCase name)
    (fun name hname t ht key hkey => ?_) nofun cs key h
  obtain ⟨q, hq, rfl⟩ := List.mem_map.mp hkey
  rcases Keyed.mem_insert hq with rfl | hq
  · exact ⟨name, hname, rfl⟩
  · exact ht q.1 (List.mem_map_of_mem hq)

end Entities

theorem nodup_entities (limit : Int) (text : Text) : (entities limit text).Nodup := by
  have hranked : ((rankBy (fun a b : Nat => b < a) Prod.snd
      (Entities.tally text.toList)).map Prod.fst).Nodup :=
    ((List.mergeSort_perm _ _).map Prod.fst).nodup_iff.mpr (Entities.nodup_keys_tally _)
  exact hranked.sublist ((headUpTo_sublist limit _).map Prod.fst)

/-- Every candidate is a name that counts, with its words capitalized. -/
theorem exists_name_of_mem_entities {limit : Int} {text key : Text}
    (h : key ∈ entities limit text) :
    ∃ name, Entities.IsCandidate name ∧ key = Entities.titleCase name := by
  obtain ⟨q, hq, rfl⟩ := List.mem_map.mp h
  have hmem : q ∈ Entities.tally text.toList :=
    (rankBy_perm _ _ _).mem_iff.mp (mem_of_mem_headUpTo hq)
  exact Entities.exists_name_of_mem_keys_tally (List.mem_map_of_mem hmem)

end Notebook
