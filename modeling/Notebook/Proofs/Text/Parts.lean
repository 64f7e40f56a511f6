import Mathlib.Data.List.Infix
import Notebook.Proofs.Text.Lowercase
import Notebook.Proofs.Text.Words

/-!
# Parts of texts in small letters

What the small letters of a part of a text are is told by the part and by two things more: whether
the last letter before it has a case, and whether the first one after it has.  Only a capital sigma
looks that far.  A blank ends every look, so the words of a text, and texts that are joined by
spaces, can be put in small letters one by one.

A part without a space stands in one of two texts that are joined by a space, or in none.
-/

namespace Notebook.Text

/-! ### Letters that are next to one another -/

/-- The first character that is not passed over: is it a letter with a case? -/
def neighbour? (cs : List Letter) : Option Bool := (cs.find? (! isPassedOver ·)).map isCased

theorem casedAhead_eq (cs : List Letter) : casedAhead cs = (neighbour? cs).getD false := rfl

theorem neighbour?_append (cs ds : List Letter) :
    neighbour? (cs ++ ds) = (neighbour? cs).or (neighbour? ds) := by
  rw [neighbour?, List.find?_append, Option.map_or]
  rfl

theorem neighbour?_singleton (c : Letter) :
    neighbour? [c] = if isPassedOver c then none else some (isCased c) := by
  cases h : isPassedOver c <;> simp [neighbour?, h]

theorem neighbour?_eq_none_iff {cs : List Letter} :
    neighbour? cs = none ↔ ∀ c ∈ cs, isPassedOver c = true := by simp [neighbour?]

/-- After some characters the last letter is that of these characters, if there is one. -/
theorem foldl_casedAfter (cased : Bool) (cs : List Letter) :
    cs.foldl casedAfter cased = (neighbour? cs.reverse).getD cased := by
  induction cs generalizing cased with
  | nil => rfl
  | cons c cs ih =>
    rw [List.foldl_cons, ih, List.reverse_cons, neighbour?_append, neighbour?_singleton]
    unfold casedAfter
    cases neighbour? cs.reverse with
    | some b => rfl
    | none => cases isPassedOver c <;> rfl

/-! ### Small letters of parts -/

/-- The small letters of `c`, if the last letter before it (`cased`) and the first one after it
(`ahead`) have a case or have none. -/
def lowerNext (cased ahead : Bool) (c : Letter) : List Letter :=
  if c = 'Σ' then [if cased && !ahead then 'ς' else 'σ']
  else if c = 'İ' then [.char 'i', .char '\u0307']
  else [lowerChar c]

/-- The small letters of a part of a text, if the letters next to it have a case or have none. -/
def lowerPart (cased ahead : Bool) : List Letter → List Letter
  | [] => []
  | c :: cs => lowerNext cased ((neighbour? cs).getD ahead) c ++
      lowerPart (casedAfter cased c) ahead cs

theorem lowerFrom_eq_lowerPart (cased : Bool) (cs : List Letter) :
    lowerFrom cased cs = lowerPart cased false cs := by
  induction cs generalizing cased with
  | nil => rfl
  | cons c cs ih =>
    rw [lowerFrom_cons, ih]
    rfl

theorem lowerChars_eq_lowerPart (cs : List Letter) : lowerChars cs = lowerPart false false cs :=
  lowerFrom_eq_lowerPart false cs

theorem lowerPart_append (cased ahead : Bool) (cs ds : List Letter) :
    lowerPart cased ahead (cs ++ ds) =
      lowerPart cased ((neighbour? ds).getD ahead) cs ++
        lowerPart (cs.foldl casedAfter cased) ahead ds := by
  induction cs generalizing cased with
  | nil => rfl
  | cons c cs ih =>
    have hahead : (neighbour? (cs ++ ds)).getD ahead =
        (neighbour? cs).getD ((neighbour? ds).getD ahead) := by
      rw [neighbour?_append]
      cases neighbour? cs <;> rfl
    rw [List.cons_append, lowerPart, hahead, ih, lowerPart, List.append_assoc]
    rfl

theorem lowerFrom_append (cased : Bool) (cs ds : List Letter) :
    lowerFrom cased (cs ++ ds) =
      lowerPart cased (casedAhead ds) cs ++ lowerFrom (cs.foldl casedAfter cased) ds := by
  rw [lowerFrom_eq_lowerPart, lowerPart_append, ← casedAhead_eq, ← lowerFrom_eq_lowerPart]

/-- A text that ends at a blank is in small letters what it is alone. -/
theorem lowerFrom_append_blank {b : Letter} (hb : isBlank b = true) (cased : Bool)
    (cs ds : List Letter) :
    lowerFrom cased (cs ++ b :: ds) = lowerFrom cased cs ++ b :: lowerChars ds := by
  have hpassed : isPassedOver b = false :=
    eq_of_isBlank (g := fun _ => false) (by decide +kernel) hb
  have hcased : isCased b = false := eq_of_isBlank (g := fun _ => false) (by decide +kernel) hb
  have hlower (ahead : Bool) : lowerAt ahead b ds = [b] := by
    have hsmall : lowerChar b = b := eq_of_isBlank (g := id) (by decide) hb
    rw [lowerAt, if_neg, if_neg, hsmall] <;> rintro rfl <;> cases hb
  have hahead : casedAhead (b :: ds) = false := by simp [casedAhead, hpassed, hcased]
  have hafter (before : Bool) : casedAfter before b = false := by
    simp [casedAfter, hpassed, hcased]
  rw [lowerFrom_append, hahead, ← lowerFrom_eq_lowerPart, lowerFrom_cons, hlower, hafter]
  rfl

theorem lowerFrom_append_space (cased : Bool) (cs ds : List Letter) :
    lowerFrom cased (cs ++ .char ' ' :: ds) = lowerFrom cased cs ++ .char ' ' :: lowerChars ds :=
  lowerFrom_append_blank (by decide) cased cs ds

theorem toList_lower (s : Text) : (lower s).toList = lowerChars s.toList := rfl

theorem lower_append_space (s t : Text) : lower (s ++ " " ++ t) = lower s ++ " " ++ lower t := by
  have hchars : (s ++ " " ++ t).toList = s.toList ++ .char ' ' :: t.toList := by simp
  apply Text.ext
  rw [toList_lower, hchars, lowerChars, lowerFrom_append_space]
  simp [toList_lower, lowerChars]

theorem lower_intercalate (ss : List Text) :
    lower (Text.intercalate " " ss) = Text.intercalate " " (ss.map lower) := by
  induction ss with
  | nil => rfl
  | cons s ss ih =>
    cases ss with
    | nil => simp
    | cons t ss =>
      rw [List.map_cons, List.map_cons, Text.intercalate_cons_cons, Text.intercalate_cons_cons,
        lower_append_space, ih, List.map_cons]

/-! ### No letter becomes a space -/

theorem space_notMem_lowerFrom {cs : List Letter} (h : .char ' ' ∉ cs) (cased : Bool) :
    .char ' ' ∉ lowerFrom cased cs := fun hmem =>
  (mem_lowerFrom_cases hmem).elim (fun hspace => h hspace.1) fun hspace =>
    absurd hspace (by decide)

/-- Every character has a small letter. -/
theorem lowerFrom_ne_nil {cs : List Letter} (h : cs ≠ []) (cased : Bool) :
    lowerFrom cased cs ≠ [] := by
  cases cs with
  | nil => exact absurd rfl h
  | cons c cs =>
    rw [lowerFrom_cons]
    unfold lowerAt
    split <;> [skip; split] <;> simp

/-! ### Words in small letters -/

theorem isBlank_ofNat {n : ℕ} (h : isBlank (Letter.ofNat n) = true) :
    n ≤ 0x20 ∨ n = 0x85 ∨ n = 0xA0 ∨ n = 0x1680 ∨ 0x2000 ≤ n ∧ n ≤ 0x205F ∨ n = 0x3000 := by
  by_cases hn : n < 0x110000
  · simp only [isBlank, Letter.toNat_ofNat hn, Bool.or_eq_true, Bool.and_eq_true,
      decide_eq_true_eq, beq_iff_eq] at h
    omega
  · rw [Letter.ofNat_of_le (Nat.le_of_not_lt hn)] at h
    cases h

/-- Neither capitals nor their small letters are blanks. -/
theorem isBlank_lowerChar {c : Letter} (h : isBlank c = false) : isBlank (lowerChar c) = false := by
  rw [← Bool.not_eq_true]
  intro hblank
  unfold lowerChar at hblank
  split at hblank
  · split at hblank
    · next hcapital =>
      rw [Bool.and_eq_true, decide_eq_true_eq, decide_eq_true_eq] at hcapital
      have hfirst : 65 ≤ c.toNat := hcapital.1
      have hlast : c.toNat ≤ 90 := hcapital.2
      have hcode := isBlank_ofNat hblank
      omega
    · simp [h] at hblank
  · split at hblank
    · next r hr =>
      -- the small letters of a run stand between two blanks, or behind all of them
      have htable : caseRuns.all (fun r =>
          0xA0 < r.first + r.shift ∧ r.last + r.shift < 0x1680 ∨ 0x3000 < r.first + r.shift ∨
          0x1680 < r.first + r.shift ∧ r.last + r.shift < 0x2000 ∨
          0x205F < r.first + r.shift ∧ r.last + r.shift < 0x3000 ∨
          0x20 < r.first + r.shift ∧ r.last + r.shift < 0x85) = true := by decide
      have hrun := List.all_eq_true.mp htable r (List.mem_of_find?_eq_some hr)
      have hcode := isBlank_ofNat hblank
      have hholds := List.find?_some hr
      simp only [CaseRun.holds, Bool.and_eq_true, decide_eq_true_eq] at hrun hholds
      omega
    · simp [h] at hblank

theorem no_blank_lowerFrom {cs : List Letter} (h : ∀ c ∈ cs, isBlank c = false) (cased : Bool) :
    ∀ c ∈ lowerFrom cased cs, isBlank c = false := by
  induction cs generalizing cased with
  | nil => exact nofun
  | cons c cs ih =>
    obtain ⟨hc, hcs⟩ := List.forall_mem_cons.mp h
    rw [lowerFrom_cons, List.forall_mem_append]
    refine ⟨?_, ih hcs _⟩
    unfold lowerAt
    split
    · split <;> simp only [List.forall_mem_singleton] <;> decide
    · split
      · exact List.forall_mem_cons.mpr ⟨rfl, List.forall_mem_singleton.mpr rfl⟩
      · rw [List.forall_mem_singleton]
        exact isBlank_lowerChar hc

/-- Small letters come word by word. -/
theorem wordsOf_lowerChars (cs : List Letter) :
    wordsOf (lowerChars cs) = (wordsOf cs).map lowerChars := by
  have hfirst : ∀ w : List Letter, (∀ c ∈ w, isBlank c = false) →
      wordsOf (lowerChars w) = (wordsOf w).map lowerChars := by
    intro w hw
    rw [lowerChars, wordsOf_of_no_blank hw, wordsOf_of_no_blank (no_blank_lowerFrom hw false)]
    cases w with
    | nil => rfl
    | cons c w => simp [lowerChars, lowerFrom_ne_nil]
  -- on the length, as the next blank may stand anywhere
  induction hn : cs.length using Nat.strong_induction_on generalizing cs with
  | _ n ih =>
    subst hn
    cases hfind : cs.find? isBlank with
    | none => exact hfirst cs fun c hc => by simpa using List.find?_eq_none.mp hfind c hc
    | some b =>
      obtain ⟨hb, w, rest, rfl, hw⟩ := List.find?_eq_some_iff_append.mp hfind
      have hword : ∀ c ∈ w, isBlank c = false := fun c hc => by simpa using hw c hc
      have hlength : rest.length < (w ++ b :: rest).length := by
        simp only [List.length_append, List.length_cons]
        omega
      have hlower : lowerChars (w ++ b :: rest) = lowerChars w ++ b :: lowerChars rest :=
        lowerFrom_append_blank hb false w rest
      rw [hlower, wordsOf_append hb, wordsOf_append hb, List.map_append, hfirst w hword,
        ih _ hlength rest rfl]

theorem words_lower (s : Text) : words (lower s) = (words s).map lower := by
  rw [words, toList_lower, wordsOf_lowerChars, words, List.map_map, List.map_map]
  exact List.map_congr_left fun w _ => congrArg Text.ofList (by simp)

/-! ### Parts that stand somewhere -/

theorem occursIn_iff (part cs : List Letter) : occursIn part cs = true ↔ part <:+: cs := by
  induction cs with
  | nil => simp [occursIn]
  | cons c cs ih =>
    rw [occursIn, Bool.or_eq_true, ih, List.isPrefixOf_iff_prefix, List.infix_cons_iff]

/-- A part without a space stands to the left of a space or to the right of it. -/
theorem left_or_right_of_space {part left right before after : List Letter}
    (hpart : .char ' ' ∉ part) (h : left ++ .char ' ' :: right = before ++ part ++ after) :
    (∃ rest, left = before ++ part ++ rest) ∨ ∃ rest, right = rest ++ part ++ after := by
  rcases List.append_eq_append_iff.mp h with ⟨rest, hbefore, hright⟩ | ⟨rest, hleft, -⟩
  · cases rest with
    | nil => exact .inl ⟨[], by rw [List.append_nil, hbefore, List.append_nil]⟩
    | cons c rest =>
      obtain ⟨rfl, rfl⟩ := List.cons_eq_cons.mp hright
      -- the space is in `before`, as it is not in the part
      rcases List.append_eq_append_iff.mp hbefore with ⟨more, -, hmore⟩ | ⟨more, -, hmore⟩
      · exact absurd (hmore ▸ List.mem_append_right more List.mem_cons_self) hpart
      · cases more with
        | nil =>
          rw [List.nil_append] at hmore
          exact absurd (hmore ▸ List.mem_cons_self) hpart
        | cons c more =>
          obtain ⟨-, rfl⟩ := List.cons_eq_cons.mp hmore
          exact .inr ⟨more, rfl⟩
  · exact .inl ⟨rest, hleft⟩

theorem infix_append_space_iff {part left right : List Letter} (hpart : .char ' ' ∉ part) :
    part <:+: left ++ .char ' ' :: right ↔ part <:+: left ∨ part <:+: right := by
  constructor
  · rintro ⟨before, after, h⟩
    rcases left_or_right_of_space hpart h.symm with ⟨rest, rfl⟩ | ⟨rest, rfl⟩
    · exact .inl (List.infix_append before part rest)
    · exact .inr (List.infix_append rest part after)
  · rintro (h | h)
    · exact h.trans List.infix_append_left
    · exact (h.trans (List.suffix_cons _ right).isInfix).trans List.infix_append_right

/-- A part without a space stands in joined texts if it stands in one of them. -/
theorem infix_intercalate_iff {part : List Letter} (hne : part ≠ []) (hpart : .char ' ' ∉ part)
    (ss : List Text) :
    part <:+: (Text.intercalate " " ss).toList ↔ ∃ s ∈ ss, part <:+: s.toList := by
  induction ss with
  | nil => simpa using hne
  | cons s ss ih =>
    cases ss with
    | nil => simp
    | cons t ss =>
      have hchars : (Text.intercalate " " (s :: t :: ss)).toList =
          s.toList ++ .char ' ' :: (Text.intercalate " " (t :: ss)).toList := by
        rw [Text.intercalate_cons_cons]
        simp
      rw [hchars, infix_append_space_iff hpart, ih]
      simp only [List.exists_mem_cons_iff]

end Notebook.Text
