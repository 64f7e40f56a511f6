import Mathlib.Data.List.Infix
import Mathlib.Data.List.TakeWhile
import Notebook.Analysis.Attachment

/-!
# What is left of attachment markers

Markers are taken out in one pass from left to right, and a pass takes out all that it comes upon.
But what stands before and behind a marker may close up to a new one, if the marker stands in the
opening of the other one or between its closing brackets.  No marker is left in any other way.
-/

namespace Notebook

namespace Attachment

open List

/-! ### Markers -/

/-- A marker has a name, in which no closing bracket stands. -/
def IsMarker (m : List Letter) : Prop :=
  ∃ name, name ≠ [] ∧ .char ']' ∉ name ∧ m = opening ++ (name ++ [.char ']', .char ']'])

def HasMarker (cs : List Letter) : Prop := ∃ m, IsMarker m ∧ m <:+: cs

theorem IsMarker.ne_nil {m : List Letter} (h : IsMarker m) : m ≠ [] := by
  obtain ⟨name, -, -, rfl⟩ := h
  exact append_ne_nil_of_left_ne_nil (by decide) _

theorem afterMarker?_eq_some_iff {cs rest : List Letter} :
    afterMarker? cs = some rest ↔ ∃ m, IsMarker m ∧ cs = m ++ rest := by
  unfold afterMarker?
  constructor
  · intro h
    split at h
    · next hopening =>
      obtain ⟨r, rfl⟩ := isPrefixOf_iff_prefix.mp hopening
      rw [drop_left] at h
      dsimp only at h
      split at h
      · next c cs rest' hname hclosing =>
        cases h
        refine ⟨_, ⟨c :: cs, cons_ne_nil _ _, fun hmem => ?_, rfl⟩, ?_⟩
        · rw [← hname] at hmem
          simpa using mem_takeWhile_imp hmem
        · rw [← takeWhile_append_dropWhile (p := (· ≠ .char ']')) (l := r), hname, hclosing]
          simp
      · cases h
    · cases h
  · rintro ⟨m, ⟨name, hne, hname, rfl⟩, rfl⟩
    have hall : ∀ c ∈ name, decide (c ≠ .char ']') = true := by
      intro c hc
      exact decide_eq_true fun h => hname (h ▸ hc)
    rw [if_pos (by simp), append_assoc, drop_left, append_assoc]
    dsimp only
    rw [takeWhile_append_of_pos hall, dropWhile_append_of_pos hall]
    obtain ⟨c, name, rfl⟩ := exists_cons_of_ne_nil hne
    simp

theorem afterMarker?_marker {m : List Letter} (h : IsMarker m) (rest : List Letter) :
    afterMarker? (m ++ rest) = some rest := afterMarker?_eq_some_iff.mpr ⟨m, h, rfl⟩

theorem afterMarker?_of_isPrefix {cs ds : List Letter} (h : cs <+: ds)
    (hnone : afterMarker? ds = none) : afterMarker? cs = none := by
  obtain ⟨rest, rfl⟩ := h
  refine Option.eq_none_iff_forall_not_mem.mpr fun r hr => ?_
  obtain ⟨m, hm, rfl⟩ := afterMarker?_eq_some_iff.mp hr
  rw [append_assoc, afterMarker?_marker hm] at hnone
  cases hnone

/-! ### The pass -/

theorem removeMarkers_marker {m : List Letter} (h : IsMarker m) (rest : List Letter) :
    removeMarkers (m ++ rest) = removeMarkers rest := by
  have hafter := afterMarker?_marker h rest
  obtain ⟨c, r, rfl⟩ := exists_cons_of_ne_nil h.ne_nil
  rw [cons_append] at hafter ⊢
  rw [removeMarkers]
  split
  · next rest' hrest =>
    rw [hafter] at hrest
    cases hrest
    rfl
  · next hnone =>
    rw [hafter] at hnone
    cases hnone

theorem removeMarkers_cons {c : Letter} {r : List Letter} (h : afterMarker? (c :: r) = none) :
    removeMarkers (c :: r) = c :: removeMarkers r := by
  rw [removeMarkers]
  split
  · next rest hrest =>
    rw [h] at hrest
    cases hrest
  · rfl

theorem removeMarkers_sublist (cs : List Letter) : (removeMarkers cs).Sublist cs := by
  fun_induction removeMarkers cs with
  | case1 => exact Sublist.refl []
  | case2 c r rest h ih =>
    obtain ⟨m, -, hcs⟩ := afterMarker?_eq_some_iff.mp h
    rw [hcs]
    exact ih.trans (sublist_append_right m rest)
  | case3 c r h ih => exact ih.cons_cons c

/-- A second pass changes nothing just if there is no marker. -/
theorem removeMarkers_eq_self_iff (cs : List Letter) : removeMarkers cs = cs ↔ ¬ HasMarker cs := by
  fun_induction removeMarkers cs with
  | case1 => exact iff_of_true rfl fun ⟨m, hm, hin⟩ => hm.ne_nil (infix_nil.mp hin)
  | case2 c r rest h ih =>
    obtain ⟨m, hm, hcs⟩ := afterMarker?_eq_some_iff.mp h
    rw [hcs]
    refine iff_of_false (fun heq => ?_) fun hno => hno ⟨m, hm, (prefix_append m rest).isInfix⟩
    have hlength := (removeMarkers_sublist rest).length_le
    have hpos := length_pos_iff.mpr hm.ne_nil
    rw [heq, length_append] at hlength
    omega
  | case3 c r h ih =>
    rw [cons_inj_right, ih, not_iff_not]
    constructor
    · rintro ⟨m, hm, hin⟩
      exact ⟨m, hm, infix_cons hin⟩
    · rintro ⟨m, hm, hin⟩
      refine ⟨m, hm, (infix_cons_iff.mp hin).resolve_left fun hstart => ?_⟩
      obtain ⟨rest, hrest⟩ := hstart
      rw [← hrest, afterMarker?_marker hm] at h
      cases h

/-! ### What closes up -/

/-- Wherever the result of a pass is cut in two, the text can be cut likewise, right before a
character that is kept. -/
theorem exists_of_removeMarkers_eq_append {cs u v : List Letter} (h : removeMarkers cs = u ++ v) :
    ∃ a b, cs = a ++ b ∧ removeMarkers a = u ∧ removeMarkers b = v ∧ afterMarker? b = none := by
  fun_induction removeMarkers cs generalizing u with
  | case1 =>
    obtain ⟨rfl, rfl⟩ := append_eq_nil_iff.mp h.symm
    exact ⟨[], [], rfl, removeMarkers_nil, removeMarkers_nil, by decide⟩
  | case2 c r rest hafter ih =>
    obtain ⟨m, hm, hcs⟩ := afterMarker?_eq_some_iff.mp hafter
    obtain ⟨a, b, rfl, hu, hv, hb⟩ := ih h
    exact ⟨m ++ a, b, by rw [hcs, append_assoc], by rw [removeMarkers_marker hm, hu], hv, hb⟩
  | case3 c r hnone ih =>
    cases u with
    | nil =>
      rw [nil_append, ← removeMarkers_cons hnone] at h
      exact ⟨[], c :: r, rfl, removeMarkers_nil, h, hnone⟩
    | cons d u =>
      obtain ⟨rfl, hrest⟩ := cons_eq_cons.mp h
      obtain ⟨a, b, rfl, hu, hv, hb⟩ := ih hrest
      have hstart : afterMarker? (c :: a) = none :=
        afterMarker?_of_isPrefix (prefix_append (c :: a) b) hnone
      exact ⟨c :: a, b, rfl, by rw [removeMarkers_cons hstart, hu], hv, hb⟩

/-- What a result begins with stood at the beginning of the text, or did so up to the first marker
that was taken out. -/
theorem prefix_or_exists_marker {cs k v : List Letter} (h : removeMarkers cs = k ++ v) :
    k <+: cs ∨ ∃ left marker after right, cs = left ++ (marker ++ after) ∧ IsMarker marker ∧
      k = left ++ right ∧ right ≠ [] ∧ removeMarkers after = right ++ v := by
  fun_induction removeMarkers cs generalizing k with
  | case1 =>
    obtain ⟨rfl, -⟩ := append_eq_nil_iff.mp h.symm
    exact .inl (prefix_refl [])
  | case2 c r rest hafter ih =>
    obtain ⟨m, hm, hcs⟩ := afterMarker?_eq_some_iff.mp hafter
    by_cases hk : k = []
    · exact .inl (hk ▸ nil_prefix)
    · exact .inr ⟨[], m, rest, k, hcs, hm, rfl, hk, h⟩
  | case3 c r hnone ih =>
    cases k with
    | nil => exact .inl nil_prefix
    | cons d k =>
      obtain ⟨rfl, hrest⟩ := cons_eq_cons.mp h
      rcases ih hrest with hk | ⟨left, marker, after, right, rfl, hm, rfl, hne, hafter⟩
      · exact .inl (cons_prefix_cons.mpr ⟨rfl, hk⟩)
      · exact .inr ⟨c :: left, marker, after, right, rfl, hm, rfl, hne, hafter⟩

/-- A marker that stands in the name of another one brings it to its end. -/
theorem isMarker_opening_append {name m : List Letter} (hname : .char ']' ∉ name) (h : IsMarker m) :
    IsMarker (opening ++ (name ++ m)) := by
  obtain ⟨inner, hne, hinner, rfl⟩ := h
  have hopening : .char ']' ∉ opening := by decide
  refine ⟨name ++ (opening ++ inner), by simp [hne], ?_, by simp⟩
  simp only [mem_append, not_or]
  exact ⟨hname, hopening, hinner⟩

/-- The parts of a marker around another one: that one stands within the opening, or between the
closing brackets. -/
def Around (left right : List Letter) : Prop :=
  (left ≠ [] ∧ left ≠ opening ∧ left <+: opening) ∨ right = [.char ']']

theorem around_of_marker {left right marker after : List Letter} (h : IsMarker (left ++ right))
    (hright : right ≠ []) (hmarker : IsMarker marker)
    (hnone : afterMarker? (left ++ (marker ++ after)) = none) : Around left right := by
  -- behind the opening and a part of the name, `marker` would have ended the other one
  have hname (part : List Letter) (hpart : .char ']' ∉ part) : left ≠ opening ++ part := by
    rintro rfl
    have hwhole := afterMarker?_marker (isMarker_opening_append hpart hmarker) after
    simp only [append_assoc] at hwhole hnone
    rw [hnone] at hwhole
    cases hwhole
  obtain ⟨name, -, hno, heq⟩ := h
  rcases append_eq_append_iff.mp heq with ⟨t, ht, -⟩ | ⟨t, rfl, hrest⟩
  · refine .inl ⟨?_, ?_, ⟨t, ht.symm⟩⟩
    · rintro rfl
      rw [nil_append, afterMarker?_marker hmarker] at hnone
      cases hnone
    · simpa using hname [] not_mem_nil
  · rcases append_eq_append_iff.mp hrest with ⟨u, rfl, hclosing⟩ | ⟨u, rfl, -⟩
    · -- of the closing brackets none, one or both are to the left
      obtain _ | ⟨c, _ | ⟨d, u⟩⟩ := u
      · exact absurd (by rw [append_nil]) (hname name hno)
      · exact .inr (by simpa using (cons_eq_cons.mp hclosing).2.symm)
      · simp [hright] at hclosing
    · exact absurd rfl (hname t fun hmem => hno (mem_append_left u hmem))

/-- A marker is taken out right behind the beginning of another one, and the end of that one is
left of what follows. -/
def ClosesUp (cs : List Letter) : Prop :=
  ∃ before left marker after right, cs = before ++ (left ++ (marker ++ after)) ∧
    IsMarker marker ∧ removeMarkers cs = removeMarkers before ++ (left ++ removeMarkers after) ∧
    right <+: removeMarkers after ∧ IsMarker (left ++ right) ∧ Around left right

theorem hasMarker_removeMarkers_iff (cs : List Letter) :
    HasMarker (removeMarkers cs) ↔ ClosesUp cs := by
  constructor
  · rintro ⟨k, hk, u, v, hkept⟩
    rw [append_assoc] at hkept
    obtain ⟨before, b, rfl, hu, hb, hnone⟩ := exists_of_removeMarkers_eq_append hkept.symm
    rcases prefix_or_exists_marker hb with ⟨r, rfl⟩ |
      ⟨left, marker, after, right, rfl, hm, rfl, hright, hafter⟩
    · rw [afterMarker?_marker hk] at hnone
      cases hnone
    · refine ⟨before, left, marker, after, right, rfl, hm, ?_, ⟨v, hafter.symm⟩, hk,
        around_of_marker hk hright hm hnone⟩
      rw [← hkept, hu, hafter, append_assoc]
  · rintro ⟨before, left, marker, after, right, -, -, hkept, ⟨v, hv⟩, hk, -⟩
    refine ⟨left ++ right, hk, removeMarkers before, v, ?_⟩
    rw [hkept, ← hv]
    simp only [append_assoc]

/-- What stands to the left of a marker that is taken out of another one ends with a character of
the opening other than its last one, or with a closing bracket. -/
theorem Around.getLast?_left {left right : List Letter} (h : Around left right)
    (hmarker : IsMarker (left ++ right)) :
    ∃ c ∈ ("[ATCH]" : Text).toList, left.getLast? = some c := by
  rcases h with ⟨hne, hopening, hstart⟩ | rfl
  · have hall : ∀ l ∈ opening.inits, l ≠ [] → l ≠ opening →
        (l.getLast?.any (("[ATCH]" : Text).toList.contains ·)) = true := by decide
    have hlast := hall left ((mem_inits left opening).mpr hstart) hne hopening
    obtain ⟨c, hlast, hc⟩ := (Option.any_eq_true _ _).mp hlast
    exact ⟨c, contains_iff_mem.mp hc, hlast⟩
  · obtain ⟨name, -, -, heq⟩ := hmarker
    have hleft : left = opening ++ (name ++ [.char ']']) := by
      refine (append_left_inj [.char ']']).mp ?_
      rw [heq]
      simp
    exact ⟨']', by decide, by rw [hleft]; simp⟩

/-- Where no marker stands right behind such a character, none closes up. -/
theorem removeMarkers_removeMarkers_of_apart {cs : List Letter}
    (h : ∀ c marker, IsMarker marker → c :: marker <:+: cs → c ∉ ("[ATCH]" : Text).toList) :
    removeMarkers (removeMarkers cs) = removeMarkers cs := by
  rw [removeMarkers_eq_self_iff, hasMarker_removeMarkers_iff]
  rintro ⟨before, left, marker, after, right, rfl, hm, -, -, hk, haround⟩
  obtain ⟨c, hc, hlast⟩ := haround.getLast?_left hk
  obtain ⟨l, rfl⟩ := getLast?_eq_some_iff.mp hlast
  exact h c marker hm ⟨before ++ l, after, by simp⟩ hc

end Attachment

open Attachment

/-- The plain text is the title and what a pass leaves of the body.  A second pass changes nothing
of that just if no marker is left, and one is left just if another one has been taken out of its
opening or from between its closing brackets. -/
theorem hasMarker_plainText_iff (title body : Text) :
    (plainText title body).toList = title.toList ++ .char '\n' :: removeMarkers body.toList ∧
      (removeMarkers (removeMarkers body.toList) = removeMarkers body.toList ↔
        ¬ HasMarker (removeMarkers body.toList)) ∧
      (HasMarker (removeMarkers body.toList) ↔ ClosesUp body.toList) := by
  refine ⟨?_, removeMarkers_eq_self_iff _, hasMarker_removeMarkers_iff _⟩
  simp [plainText]

/-- One marker stands in the opening of another one, which is left. -/
theorem hasMarker_plainText_nested :
    let body : Text := "[[ATT[[ATTACH:x]]ACH:y]]"
    plainText "Trip" body = "Trip\n[[ATTACH:y]]" ∧ HasMarker (removeMarkers body.toList) ∧
      removeMarkers (removeMarkers body.toList) ≠ removeMarkers body.toList := by
  intro body
  have hkept : removeMarkers body.toList = ("[[ATTACH:y]]" : Text).toList := by decide +kernel
  have hmarker : HasMarker (removeMarkers body.toList) := by
    rw [hkept]
    exact ⟨_, ⟨[.char 'y'], by decide, by decide, rfl⟩, List.infix_refl _⟩
  refine ⟨?_, hmarker, fun h => (removeMarkers_eq_self_iff _).mp h hmarker⟩
  rw [plainText, hkept]
  decide

end Notebook
