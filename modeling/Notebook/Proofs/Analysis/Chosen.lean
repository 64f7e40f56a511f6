import Notebook.Proofs.Analysis.Sentences
import Notebook.Proofs.Ranking

/-!
# The sentences that are chosen

Key sentences are chosen among the candidates by their places, so what is said twice can be chosen
twice.  As many are chosen as there may be, no candidate that is left out is better, and a higher
count adds others at the end.
-/

namespace Notebook

namespace KeySentences

/-- The sentences that are chosen from the candidates, each with its place among them. -/
structure Chosen (all : List (List Letter)) (count : Nat) (chosen : List (List Letter × Nat)) :
    Prop where
  placed : ∀ p ∈ chosen, all[p.2]? = some p.1
  nodup : (chosen.map Prod.snd).Nodup
  length_eq : chosen.length = min count all.length
  /-- Higher scores come first, and of two equal ones that of the earlier place. -/
  sorted : chosen.Pairwise fun p q =>
    score all q.1 < score all p.1 ∨ score all q.1 = score all p.1 ∧ p.2 < q.2
  /-- What is left out has a lower score than what is chosen, or the same and a later place. -/
  best : ∀ s i, all[i]? = some s → i ∉ chosen.map Prod.snd → ∀ p ∈ chosen,
    score all s < score all p.1 ∨ score all s = score all p.1 ∧ p.2 < i

/-- The candidates with their places, in falling order of their scores. -/
def ranked (all : List (List Letter)) : List (List Letter × Nat) :=
  rankBy (fun a b : Nat => b < a) (score all ∘ Prod.fst) all.zipIdx

theorem mem_ranked_iff {all : List (List Letter)} {s : List Letter} {i : Nat} :
    (s, i) ∈ ranked all ↔ all[i]? = some s := by
  rw [ranked, (rankBy_perm _ _ _).mem_iff, List.mk_mem_zipIdx_iff_getElem?]

theorem pairwise_ranked (all : List (List Letter)) :
    (ranked all).Pairwise fun p q =>
      score all q.1 < score all p.1 ∨ score all q.1 = score all p.1 ∧ p.2 < q.2 :=
  pairwise_rankBy _ (pairwise_zipIdx all)

theorem nodup_places_ranked (all : List (List Letter)) : ((ranked all).map Prod.snd).Nodup := by
  have hplaces : (all.zipIdx.map Prod.snd).Nodup :=
    List.pairwise_map.mpr ((pairwise_zipIdx all).imp Nat.ne_of_lt)
  exact ((rankBy_perm _ _ _).map Prod.snd).nodup_iff.mpr hplaces

theorem chosen_take_ranked (all : List (List Letter)) (count : Nat) :
    Chosen all count ((ranked all).take count) := by
  refine ⟨fun p hp => mem_ranked_iff.mp (List.mem_of_mem_take hp), ?_, ?_, ?_, ?_⟩
  · exact (nodup_places_ranked all).sublist ((List.take_sublist count _).map _)
  · rw [List.length_take, ranked, (rankBy_perm _ _ _).length_eq, List.length_zipIdx]
  · exact (pairwise_ranked all).sublist (List.take_sublist count _)
  · intro s i hs hout p hp
    exact rel_of_mem_take (pairwise_ranked all) hp (mem_ranked_iff.mpr hs)
      fun hin => hout (List.mem_map_of_mem hin)

end KeySentences

open KeySentences

theorem keySentences_eq (count : Nat) (cs : List Letter) :
    keySentences count cs = ((ranked (candidates cs)).take count).map Prod.fst := by
  have hcandidates := List.zipIdx_map_fst 0 (candidates cs)
  have hranked : rankBy (fun a b : Nat => b < a) (score (candidates cs)) (candidates cs) =
      (ranked (candidates cs)).map Prod.fst := by
    rw [ranked, ← rankBy_map, hcandidates]
  rw [keySentences, headUpTo_ofNat, List.map_take, ← hranked]

/-- The candidates are the pieces of more than ten characters, trimmed, and there is one way only in
which the text falls into pieces.  Of them the best ones are chosen, as they stand in the text.  A
lower count gives the first of the sentences that a higher one gives. -/
theorem keySentences_chosen (cs : List Letter) {m n : Nat} (h : m ≤ n) :
    (∃ pieces, (∀ ps, Parted cs ps ↔ ps = pieces) ∧
        candidates cs = (pieces.map Text.trim).filter fun s => 10 < s.length) ∧
      Text.InTurn (candidates cs) cs ∧
      (∀ s ∈ keySentences m cs, IsSentence cs s) ∧
      keySentences m cs <+: keySentences n cs ∧
      (keySentences m cs).length = min m (candidates cs).length ∧
      ∃ chosen, Chosen (candidates cs) m chosen ∧ keySentences m cs = chosen.map Prod.fst := by
  have hchosen := chosen_take_ranked (candidates cs) m
  refine ⟨⟨_, fun ps => parted_iff, rfl⟩, inTurn_candidates cs, fun s hs => ?_, ?_, ?_,
    _, hchosen, keySentences_eq m cs⟩
  · rw [keySentences_eq] at hs
    obtain ⟨p, hp, rfl⟩ := List.mem_map.mp hs
    exact isSentence_of_mem_candidates (List.mem_of_getElem? (hchosen.placed p hp))
  · rw [keySentences_eq, keySentences_eq]
    exact (List.take_prefix_take_left h).map Prod.fst
  · rw [keySentences_eq, List.length_map, hchosen.length_eq]

/-- Three sentences of the same score, two of them in the same words. -/
theorem keySentences_chosen_tea :
    let cs := ("Tea needs time. Tea needs time.\nMilk is for later." : Text).toList
    (candidates cs).map (score (candidates cs)) = [4, 4, 4] ∧
      2 ≤ 3 ∧ keySentences (2 : Nat) cs <+: keySentences (3 : Nat) cs ∧
      (keySentences (2 : Nat) cs).length = 2 ∧
      ∃ chosen, Chosen (candidates cs) 2 chosen ∧
        keySentences (2 : Nat) cs = chosen.map Prod.fst := by
  intro cs
  have hle : 2 ≤ 3 := by decide
  have hcandidates : (candidates cs).length = 3 := by decide +kernel
  have hscores : (candidates cs).map (score (candidates cs)) = [4, 4, 4] := by decide +kernel
  obtain ⟨-, -, -, hfirst, hlength, hchosen⟩ := keySentences_chosen cs hle
  rw [hcandidates] at hlength
  exact ⟨hscores, hle, hfirst, hlength, hchosen⟩

end Notebook
