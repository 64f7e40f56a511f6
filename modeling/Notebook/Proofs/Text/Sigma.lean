import Notebook.Proofs.Text.Parts

/-!
# Capital sigmas in parts of texts

A part of a text is not always a part of the text in small letters.  The small letter of a capital
sigma is told by the letters next to it: `ΠΡΟΣ` alone ends with a final sigma, and in `ΠΡΟΣΩΠΟ` it
does not.  What matters is whether the part itself has the letters that tell.  If it has them for
each of its sigmas, its small letters are the same in every text; if not, one letter before it or
after it is enough to change them.
-/

namespace Notebook.Text

/-- The characters before a capital sigma and after it tell its small letter, whatever stands
around them: there is a letter with a case after it, or the letter before it has none, or both
letters are here. -/
def SettledAt (before rest : List Letter) : Prop :=
  neighbour? rest = some true ∨ neighbour? before.reverse = some false ∨
    neighbour? before.reverse = some true ∧ neighbour? rest = some false

instance (before rest : List Letter) : Decidable (SettledAt before rest) :=
  inferInstanceAs (Decidable (_ ∨ _ ∨ _ ∧ _))

/-- Each capital sigma is settled by the part it stands in. -/
def Settled (cs : List Letter) : Prop :=
  ∀ before rest, cs = before ++ .char 'Σ' :: rest → SettledAt before rest

theorem settled_iff_getElem? {cs : List Letter} :
    Settled cs ↔
      ∀ i < cs.length, cs[i]? = some (.char 'Σ') → SettledAt (cs.take i) (cs.drop (i + 1)) := by
  constructor
  · intro h i hi hget
    apply h
    obtain ⟨hi, hsigma⟩ := List.getElem?_eq_some_iff.mp hget
    rw [← hsigma, List.getElem_cons_drop, List.take_append_drop]
  · rintro h before rest rfl
    have hat := h before.length (by simp) (by simp)
    rwa [List.take_left, List.drop_length_add_append] at hat

instance (cs : List Letter) : Decidable (Settled cs) := decidable_of_iff' _ settled_iff_getElem?

/-! ### Settled parts -/

theorem lowerNext_of_ne {c : Letter} (hc : c ≠ 'Σ') (cased ahead cased' ahead' : Bool) :
    lowerNext cased ahead c = lowerNext cased' ahead' c := by
  rw [lowerNext, lowerNext, if_neg hc, if_neg hc]

theorem SettledAt.lowerNext_eq {before rest : List Letter} (h : SettledAt before rest)
    (cased ahead : Bool) :
    lowerNext (before.foldl casedAfter cased) ((neighbour? rest).getD ahead) 'Σ' =
      lowerNext (before.foldl casedAfter false) ((neighbour? rest).getD false) 'Σ' := by
  rw [foldl_casedAfter, foldl_casedAfter]
  rcases h with h | h | ⟨hbefore, hrest⟩
  · simp [lowerNext, h]
  · simp [lowerNext, h]
  · simp [lowerNext, hbefore, hrest]

theorem Settled.lowerPart_eq {cs : List Letter} (h : Settled cs) (cased ahead : Bool) :
    lowerPart cased ahead cs = lowerChars cs := by
  rw [lowerChars_eq_lowerPart]
  -- The induction is on what is still to be read; what has been read grows at its end.
  suffices hrest : ∀ before rest, cs = before ++ rest →
      lowerPart (before.foldl casedAfter cased) ahead rest =
        lowerPart (before.foldl casedAfter false) false rest from hrest [] cs rfl
  intro before rest
  induction rest generalizing before with
  | nil => intro _; rfl
  | cons c rest ih =>
    intro hcs
    have htail := ih (before ++ [c]) (by rw [hcs, List.append_assoc, List.singleton_append])
    rw [List.foldl_concat, List.foldl_concat] at htail
    rw [lowerPart, lowerPart, htail]
    congr 1
    by_cases hc : c = 'Σ'
    · subst hc
      exact (h before rest hcs).lowerNext_eq cased ahead
    · exact lowerNext_of_ne hc _ _ _ _

/-- A settled part of a text is in small letters a part of the text in small letters. -/
theorem Settled.infix_lowerChars {cs text : List Letter} (h : Settled cs) (hin : cs <:+: text) :
    lowerChars cs <:+: lowerChars text := by
  obtain ⟨before, after, rfl⟩ := hin
  rw [List.append_assoc, lowerChars.eq_1 (before ++ _), lowerFrom_append, lowerFrom_append,
    h.lowerPart_eq, ← List.append_assoc]
  exact List.infix_append _ _ _

/-! ### Parts that are not settled -/

theorem lowerPart_of_notMem {cs : List Letter} (h : .char 'Σ' ∉ cs)
    (cased ahead cased' ahead' : Bool) : lowerPart cased ahead cs = lowerPart cased' ahead' cs := by
  induction cs generalizing cased cased' with
  | nil => rfl
  | cons c cs ih =>
    rw [List.mem_cons, not_or] at h
    rw [lowerPart, lowerPart, ih h.2 _ (casedAfter cased' c), lowerNext_of_ne (Ne.symm h.1)]

/-- A sigma is a letter with a case, for what comes before it and for what comes after it. -/
theorem lowerPart_append_sigma (cased ahead : Bool) (before rest : List Letter) :
    lowerPart cased ahead (before ++ .char 'Σ' :: rest) =
      lowerPart cased true before ++
        (lowerNext (before.foldl casedAfter cased) ((neighbour? rest).getD ahead) 'Σ' ++
          lowerPart true ahead rest) := by
  have hsigma : isPassedOver 'Σ' = false ∧ isCased 'Σ' = true := by decide
  have hahead : neighbour? (.char 'Σ' :: rest) = some true := by simp [neighbour?, hsigma]
  have hafter (b : Bool) : casedAfter b 'Σ' = true := by simp [casedAfter, hsigma]
  rw [lowerPart_append, hahead, lowerPart, hafter]
  rfl

/-- One letter is exchanged for another, and the new text has no more of it around. -/
theorem not_infix_of_exchanged {α : Type} [DecidableEq α] {x y : α} (hne : y ≠ x)
    (left right : List α) {before after : List α} (hbefore : x ∉ before) (hafter : x ∉ after) :
    ¬ left ++ x :: right <:+: before ++ (left ++ y :: right) ++ after := by
  intro h
  have hcount := h.sublist.count_le x
  simp only [List.count_append, List.count_cons_self, List.count_cons_of_ne hne,
    List.count_eq_zero.mpr hbefore, List.count_eq_zero.mpr hafter] at hcount
  omega

theorem sigma_notMem_of_neighbour? {cs : List Letter} (h : neighbour? cs = none) : .char 'Σ' ∉ cs :=
  fun hmem => absurd (neighbour?_eq_none_iff.mp h 'Σ' hmem) (by decide)

section Exchanged

variable {before rest : List Letter}

/-- The sigma is final if it stands alone, and is not final before a letter. -/
theorem not_infix_append_letter (hbefore : neighbour? before.reverse = some true)
    (hrest : neighbour? rest = none) :
    ¬ lowerChars (before ++ .char 'Σ' :: rest) <:+:
      lowerChars (before ++ .char 'Σ' :: rest ++ [.char 'a']) := by
  have halone : lowerChars (before ++ .char 'Σ' :: rest) =
      lowerPart false true before ++ .char 'ς' :: lowerPart true false rest := by
    rw [lowerChars_eq_lowerPart, lowerPart_append_sigma, foldl_casedAfter, hbefore, hrest]
    rfl
  have hahead : casedAhead [.char 'a'] = true := by decide
  have hlonger : lowerChars (before ++ .char 'Σ' :: rest ++ [.char 'a']) =
      [] ++ (lowerPart false true before ++ .char 'σ' :: lowerPart true false rest) ++
        [.char 'a'] := by
    rw [lowerChars, lowerFrom_append, hahead, lowerPart_append_sigma, foldl_casedAfter, hbefore,
      hrest, lowerPart_of_notMem (sigma_notMem_of_neighbour? hrest) true true true false]
    rfl
  rw [halone, hlonger]
  exact not_infix_of_exchanged (by decide) _ _ List.not_mem_nil (by decide)

/-- The sigma is not final if it stands alone, and is final after a letter. -/
theorem not_infix_cons_letter (hbefore : neighbour? before.reverse = none)
    (hrest : (neighbour? rest).getD false = false) :
    ¬ lowerChars (before ++ .char 'Σ' :: rest) <:+:
      lowerChars (.char 'a' :: (before ++ .char 'Σ' :: rest)) := by
  have halone : lowerChars (before ++ .char 'Σ' :: rest) =
      lowerPart false true before ++ .char 'σ' :: lowerPart true false rest := by
    rw [lowerChars_eq_lowerPart, lowerPart_append_sigma, foldl_casedAfter, hbefore, hrest]
    rfl
  have hnosigma : .char 'Σ' ∉ before := fun hmem =>
    sigma_notMem_of_neighbour? hbefore (List.mem_reverse.mpr hmem)
  have hafter : casedAfter false 'a' = true := by decide
  have hlonger : lowerChars (.char 'a' :: (before ++ .char 'Σ' :: rest)) =
      [.char 'a'] ++ (lowerPart false true before ++ .char 'ς' :: lowerPart true false rest) ++
        [] := by
    rw [lowerChars, lowerFrom_cons, hafter, lowerFrom_eq_lowerPart, lowerPart_append_sigma,
      foldl_casedAfter, hbefore, hrest, lowerPart_of_notMem hnosigma true true false true,
      List.append_nil]
    rfl
  rw [halone, hlonger]
  exact not_infix_of_exchanged (by decide) _ _ (by decide) List.not_mem_nil

end Exchanged

/-- A part that stands in small letters before a letter and after one is settled. -/
theorem settled_of_beside_letters {cs : List Letter}
    (hbefore : lowerChars cs <:+: lowerChars (cs ++ [.char 'a']))
    (hafter : lowerChars cs <:+: lowerChars (.char 'a' :: cs)) : Settled cs := by
  rintro before rest rfl
  unfold SettledAt
  match hlast : neighbour? before.reverse, hnext : neighbour? rest with
  | _, some true => exact .inl rfl
  | some false, _ => exact .inr (.inl rfl)
  | some true, some false => exact .inr (.inr ⟨rfl, rfl⟩)
  | some true, none => exact absurd hbefore (not_infix_append_letter hlast hnext)
  | none, some false => exact absurd hafter (not_infix_cons_letter hlast (by rw [hnext]; rfl))
  | none, none => exact absurd hafter (not_infix_cons_letter hlast (by rw [hnext]; rfl))

/-- The parts that stand in small letters wherever they stand are the settled ones. -/
theorem infix_lowerChars_iff {cs : List Letter} :
    (∀ text, cs <:+: text → lowerChars cs <:+: lowerChars text) ↔ Settled cs :=
  ⟨fun h => settled_of_beside_letters (h _ (List.prefix_append cs [.char 'a']).isInfix)
      (h _ (List.suffix_cons (.char 'a') cs).isInfix),
    fun h _ => h.infix_lowerChars⟩

end Notebook.Text
