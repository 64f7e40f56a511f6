import Mathlib.Data.List.Perm.Subperm
import Notebook.Proofs.Analysis.Sightings

/-!
# Candidates of joined texts

Of two texts with a line break between them the tallies add up, and the candidates of the first one
come first.  A text that is joined to itself has the candidates that it has alone, in the same
order.
-/

namespace Notebook

namespace Entities

theorem count_tally (cs : List Letter) (key : Text) :
    (tally cs).count key = (sightings cs).count key := by
  rw [tally_eq, Tally.count_addAll]
  exact Nat.zero_add _

theorem count_tally_append_break (a b : List Letter) (key : Text) :
    (tally (a ++ .char '\n' :: b)).count key = (tally a).count key + (tally b).count key := by
  rw [count_tally, count_tally, count_tally, sightings_append_break, List.count_append]

theorem keys_tally_append_break (a b : List Letter) :
    (tally (a ++ .char '\n' :: b)).keys =
      (tally a).keys ++ (tally b).keys.filter (· ∉ (tally a).keys) := by
  rw [tally_eq (a ++ .char '\n' :: b), sightings_append_break, Tally.addAll_append,
    Tally.keys_addAll, ← tally_eq, ← tally_eq]

theorem mem_keys_tally_append_break (a b : List Letter) (key : Text) :
    key ∈ (tally (a ++ .char '\n' :: b)).keys ↔ key ∈ (tally a).keys ∨ key ∈ (tally b).keys := by
  rw [keys_tally_append_break, List.mem_append, List.mem_filter, decide_eq_true_eq]
  by_cases h : key ∈ (tally a).keys <;> simp [h]

/-- A tally with fewer candidates is not longer. -/
theorem length_tally_le {cs ds : List Letter} (h : ∀ key ∈ (tally cs).keys, key ∈ (tally ds).keys) :
    (tally cs).length ≤ (tally ds).length := by
  rw [← Tally.length_keys, ← Tally.length_keys]
  exact (List.subperm_of_subset (nodup_keys_tally cs) h).length_le

end Entities

open Entities

/-- With a line break between two texts the counts add up, and what is first seen in the second
text comes behind what is seen in the first.  So if the limit lets all candidates through, they are
those of both texts.  What is said twice gives the candidates of what is said once, whatever the
limit. -/
theorem entities_append_break (a b : Text) :
    (∀ key, (tally (a ++ "\n" ++ b).toList).count key =
        (tally a.toList).count key + (tally b.toList).count key) ∧
      (tally (a ++ "\n" ++ b).toList).keys =
        (tally a.toList).keys ++ (tally b.toList).keys.filter (· ∉ (tally a.toList).keys) ∧
      (∀ limit : Int, (tally (a ++ "\n" ++ b).toList).length ≤ limit → ∀ key,
        key ∈ entities limit (a ++ "\n" ++ b) ↔ key ∈ entities limit a ∨ key ∈ entities limit b) ∧
      ∀ limit, entities limit (a ++ "\n" ++ a) = entities limit a := by
  have hchars (s t : Text) : (s ++ "\n" ++ t).toList = s.toList ++ .char '\n' :: t.toList := by simp
  rw [hchars]
  refine ⟨count_tally_append_break _ _, keys_tally_append_break _ _, ?_, ?_⟩
  · intro limit hlimit key
    have hmem := mem_keys_tally_append_break a.toList b.toList
    have hleft : (tally a.toList).length ≤ limit := by
      have hle := length_tally_le fun key hkey => (hmem key).mpr (.inl hkey)
      omega
    have hright : (tally b.toList).length ≤ limit := by
      have hle := length_tally_le fun key hkey => (hmem key).mpr (.inr hkey)
      omega
    rw [mem_entities_of_length_le hleft, mem_entities_of_length_le hright, ← hmem, ← hchars]
    exact mem_entities_of_length_le (by rw [hchars]; exact hlimit) key
  · intro limit
    have hnone : (tally a.toList).keys.filter (· ∉ (tally a.toList).keys) = [] := by
      refine List.filter_eq_nil_iff.mpr fun key hkey => ?_
      simp [hkey]
    rw [entities_eq, entities_eq, hchars, keys_tally_append_break, hnone, List.append_nil]
    -- the order of the counts is that of twice the counts
    refine congrArg (headUpTo limit) (rankBy_congr (fun key key' => ?_) _)
    rw [count_tally_append_break, count_tally_append_break, decide_eq_decide]
    omega

theorem entities_append_break_tea :
    let a : Text := "Black tea with milk"
    let b : Text := "More milk"
    (tally (a ++ "\n" ++ b).toList).length ≤ (5 : Int) ∧
      (("More" : Text) ∈ entities 5 (a ++ "\n" ++ b) ↔
        ("More" : Text) ∈ entities 5 a ∨ ("More" : Text) ∈ entities 5 b) := by
  intro a b
  have hlength : (tally (a ++ "\n" ++ b).toList).length ≤ (5 : Int) := by decide +kernel
  exact ⟨hlength, (entities_append_break a b).2.2.1 5 hlength "More"⟩

end Notebook
