import Notebook.Proofs.Analysis.Sightings
import Notebook.Proofs.Analysis.Titled

/-!
# Canonical candidates

The candidates of a text have one spelling each.  They come to the tally as words or as names, in
capitals or in small letters, but what is counted is always a name with its words capitalized, and
such a name is told by its small letters.  A higher limit adds candidates at the end, which have
been seen no more often than those before them.
-/

namespace Notebook

namespace Entities

open Text

/-! ### Words of candidates -/

theorem not_blank_of_isInner {c : Letter} (h : isInner c = true) : isBlank c = false := by
  cases hc : isBlank c with
  | false => rfl
  | true =>
    have hno : isInner c = false :=
      eq_of_isBlank (f := isInner) (g := fun _ => false) (by decide) hc
    rw [hno] at h
    cases h

theorem capitalize_capitalize (w : List Letter) : capitalize (capitalize w) = capitalize w := by
  cases w with
  | nil => rfl
  | cons c w =>
    simp only [capitalize, List.map_map, Function.comp_def, toUpper_toUpper, toLower_toLower]

theorem isWord_capitalize {w : List Letter} (h : IsWord w) : IsWord (capitalize w) := by
  cases w with
  | nil => cases h
  | cons c r =>
    have hplain {x : Letter} (hx : x ∈ c :: r) : x.toNat < 0x80 := plain_of_isInner (h.isInner hx)
    refine ⟨?_, List.forall_mem_map.mpr fun x hx => ?_⟩
    · exact forall_of_toNat_lt (P := fun c => isLetter c = true → isLetter c.toUpper = true)
        (by decide) (hplain List.mem_cons_self) h.1
    · exact forall_of_toNat_lt (P := fun c => isInner c = true → isInner c.toLower = true)
        (by decide) (hplain (List.mem_cons_of_mem c hx)) (h.2 x hx)

theorem wordsOf_spaced {ws : List (List Letter)} (h : ∀ w ∈ ws, IsWord w) :
    wordsOf (spaced ws) = ws := by
  have hword {w : List Letter} (hw : IsWord w) : wordsOf w = [w] := by
    rw [wordsOf_of_no_blank fun c hc => not_blank_of_isInner (hw.isInner hc)]
    cases w with
    | nil => cases hw
    | cons c w => rfl
  induction ws with
  | nil => rfl
  | cons w ws ih =>
    obtain ⟨hw, hws⟩ := List.forall_mem_cons.mp h
    cases ws with
    | nil => exact hword hw
    | cons v ws => rw [spaced, wordsOf_append (by decide), hword hw, ih hws, List.singleton_append]

/-! ### Letters of candidates -/

theorem map_toLower_spaced (name : List (List Letter)) :
    (spaced (name.map capitalize)).map Letter.toLower = (spaced name).map Letter.toLower := by
  induction name with
  | nil => rfl
  | cons w name ih =>
    cases name with
    | nil => exact map_toLower_capitalize w
    | cons v name =>
      rw [List.map_cons] at ih
      rw [List.map_cons, List.map_cons, spaced, spaced, List.map_append, List.map_append,
        List.map_cons, List.map_cons, map_toLower_capitalize, ih]

theorem length_titleCase (name : List (List Letter)) :
    (titleCase name).length = (spaced name).length := by
  have hlength := congrArg List.length (map_toLower_spaced name)
  rwa [List.length_map, List.length_map, ← toList_titleCase, Text.length_toList] at hlength

theorem lower_titleCase {name : List (List Letter)} (h : IsName name) :
    lower (titleCase name) = small (spaced name) := by
  refine Text.ext ?_
  rw [toList_lower, toList_titleCase, lowerChars_of_plain (plain_spaced h.isWord),
    map_toLower_spaced, small, Text.toList_ofList]

/-- Stopwords are written in small letters. -/
theorem lower_of_isStopword {s : Text} (h : isStopword s = true) : lower s = s := by
  have hall : ∀ w ∈ stopwords, lower w = w := by decide
  exact hall s (List.contains_iff_mem.mp h)

end Entities

open Entities

/-- What every candidate is: its own title, three characters or more, a stopword in no letters, and
words with single spaces between them. -/
theorem canonical_of_mem_entities {limit : Int} {text tag : Text}
    (h : tag ∈ entities limit text) :
    titleCase (Text.wordsOf tag.toList) = tag ∧ 3 ≤ tag.length ∧
      (∀ s, Text.lower s = Text.lower tag → isStopword s = false) ∧
      ∃ words, IsName words ∧ tag = Text.intercalate " " (words.map Text.ofList) := by
  obtain ⟨name, hname, rfl⟩ := exists_name_of_mem_entities h
  have hwords : ∀ w ∈ name.map capitalize, IsWord w :=
    List.forall_mem_map.mpr fun w hw => isWord_capitalize (hname.isWord w hw)
  refine ⟨?_, ?_, fun s hs => ?_, name.map capitalize, ⟨?_, hwords⟩, ?_⟩
  · rw [toList_titleCase, wordsOf_spaced hwords]
    simp only [titleCase, List.map_map, Function.comp_def, capitalize_capitalize]
  · rw [length_titleCase]
    exact hname.length_le
  · rw [lower_titleCase hname.toIsName] at hs
    by_contra hstop
    have hsmall := lower_of_isStopword (by simpa using hstop)
    rw [← hsmall, hs, hname.not_stopword] at hstop
    exact hstop rfl
  · simpa using hname.ne_nil
  · rw [titleCase, List.map_map]
    rfl

theorem eq_of_lower_eq {limit : Int} {text tag tag' : Text} (h : tag ∈ entities limit text)
    (h' : tag' ∈ entities limit text) (heq : Text.lower tag = Text.lower tag') : tag = tag' := by
  have htitle := (lower_eq_lower_iff_of_mem_entities h tag).mp rfl
  rw [← htitle]
  exact (lower_eq_lower_iff_of_mem_entities h' tag).mp heq

theorem pairwise_idxOf_lt {keys : List Text} (h : keys.Nodup) :
    keys.Pairwise fun key key' => keys.idxOf key < keys.idxOf key' := by
  refine List.pairwise_iff_getElem.mpr fun i j hi hj hij => ?_
  rw [h.idxOf_getElem, h.idxOf_getElem]
  exact hij

/-- Candidates come in falling order of their counts, and with equal counts as they were seen. -/
theorem pairwise_entities (limit : Int) (text : Text) :
    (entities limit text).Pairwise fun tag tag' =>
      (tally text.toList).count tag' < (tally text.toList).count tag ∨
        (tally text.toList).count tag' = (tally text.toList).count tag ∧
          (tally text.toList).keys.idxOf tag < (tally text.toList).keys.idxOf tag' := by
  rw [entities_eq]
  exact (pairwise_rankBy _ (pairwise_idxOf_lt (nodup_keys_tally text.toList))).sublist
    (headUpTo_sublist limit _)

/-- A lower limit gives the first of the candidates that a higher one gives.  No two candidates
have the same small letters, and each of them has the one spelling that it would be given again. -/
theorem entities_canonical (text : Text) {m n : Nat} (h : m ≤ n) :
    entities m text <+: entities n text ∧ (entities m text).length ≤ m ∧
      (entities m text).Pairwise (fun tag tag' => Text.lower tag ≠ Text.lower tag') ∧
      (∀ tag ∈ entities m text,
        titleCase (Text.wordsOf tag.toList) = tag ∧ 3 ≤ tag.length ∧
          (∀ s, Text.lower s = Text.lower tag → isStopword s = false) ∧
          ∃ words, IsName words ∧ tag = Text.intercalate " " (words.map Text.ofList)) ∧
      (entities m text).Pairwise fun tag tag' =>
        (tally text.toList).count tag' < (tally text.toList).count tag ∨
          (tally text.toList).count tag' = (tally text.toList).count tag ∧
            (tally text.toList).keys.idxOf tag < (tally text.toList).keys.idxOf tag' := by
  refine ⟨?_, ?_, ?_, fun tag htag => canonical_of_mem_entities htag, pairwise_entities m text⟩
  · rw [entities_eq, entities_eq, headUpTo_ofNat, headUpTo_ofNat]
    exact List.take_prefix_take_left h
  · rw [entities_eq, headUpTo_ofNat]
    exact List.length_take_le m _
  · refine (nodup_entities m text).imp_of_mem fun {tag tag'} htag htag' hne heq => ?_
    exact hne (eq_of_lower_eq htag htag' heq)

/-- `Sarah Connor` is one of four candidates, in its one spelling. -/
theorem entities_canonical_sarah :
    let text : Text :=
      "Meeting with Sarah Connor about the budget. Sarah Connor approved the budget."
    let name : Text := "Sarah Connor"
    4 ≤ 7 ∧ name ∈ entities 4 text ∧ entities (4 : Nat) text <+: entities (7 : Nat) text ∧
      titleCase (Text.wordsOf name.toList) = name ∧
      ∀ s, Text.lower s = Text.lower name → isStopword s = false := by
  intro text name
  have hle : 4 ≤ 7 := by decide
  have hlength : (tally text.toList).length ≤ (4 : Int) := by decide +kernel
  have hkey : name ∈ (tally text.toList).keys := by decide +kernel
  have hmem : name ∈ entities 4 text := (mem_entities_of_length_le hlength _).mpr hkey
  obtain ⟨hfirst, -, -, hall, -⟩ := entities_canonical text hle
  obtain ⟨htitle, -, hstop, -⟩ := hall name hmem
  exact ⟨hle, hmem, hfirst, htitle, hstop⟩

end Notebook
