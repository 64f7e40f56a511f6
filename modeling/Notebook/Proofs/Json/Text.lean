import Mathlib.Data.List.Chain
import Mathlib.Tactic.NormNum
import Notebook.Json.Reader
import Notebook.Json.Writer

/-!
# Texts written and read

Every letter is written in ASCII, some behind a backslash and those beyond ASCII by their UTF-16
units.  Read back, the units of a pair join again.  So do two halves that merely stood side by side:
a text comes back as it was if it is whole.
-/

namespace Notebook

/-! ### Whole texts -/

namespace Text

/-- No two letters next to each other are the halves of a pair. -/
def Whole (s : Text) : Prop := s.toList.IsChain fun a b => a.isHigh = true → b.isLow = false

instance (s : Text) : Decidable s.Whole := by
  unfold Whole
  infer_instance

/-- A text without first halves is whole. -/
theorem whole_of_not_high {s : Text} (h : ∀ l ∈ s.toList, l.isHigh = false) : s.Whole :=
  List.isChain_iff_forall_rel_of_append_cons_cons.mpr fun a b front rest heq hhigh => by
    rw [h a (heq ▸ by simp)] at hhigh
    cases hhigh

theorem whole_ofString (s : String) : (ofString s).Whole :=
  whole_of_not_high (List.forall_mem_map.mpr fun _ _ => rfl)

/-- The letters with each two halves of a pair that stand side by side put together. -/
def mend : List Letter → List Letter
  | [] => []
  | [a] => [a]
  | a :: b :: r =>
    if a.isHigh && b.isLow then .ofNat (Json.join a.toNat b.toNat) :: mend r else a :: mend (b :: r)

def mended (s : Text) : Text := ofList (mend s.toList)

theorem mend_pair {a b : Letter} (ha : a.isHigh = true) (hb : b.isLow = true) (r : List Letter) :
    mend (a :: b :: r) = .ofNat (Json.join a.toNat b.toNat) :: mend r := by
  rw [mend, ha, hb, Bool.and_true, if_pos rfl]

theorem mend_cons {a : Letter} {r : List Letter}
    (h : ∀ b ∈ r.head?, a.isHigh = true → b.isLow = false) : mend (a :: r) = a :: mend r := by
  cases r with
  | nil => rfl
  | cons b r =>
    have hno : (a.isHigh && b.isLow) = false := Bool.and_eq_false_imp.mpr (h b rfl)
    rw [mend, hno, if_neg Bool.false_ne_true]

theorem mended_of_whole {s : Text} (h : s.Whole) : s.mended = s := by
  have hmend : ∀ {ls : List Letter}, ls.IsChain (fun a b => a.isHigh = true → b.isLow = false) →
      mend ls = ls := by
    intro ls h
    induction ls with
    | nil => rfl
    | cons a r ih =>
      obtain ⟨hhead, htail⟩ := List.isChain_cons.mp h
      rw [mend_cons hhead, ih htail]
  exact Text.ext (hmend h)

end Text

theorem Json.isHigh_iff {n : Nat} : isHigh n = true ↔ 0xD800 ≤ n ∧ n ≤ 0xDBFF := by
  rw [isHigh, Bool.and_eq_true, decide_eq_true_eq, decide_eq_true_eq]

theorem Json.isLow_iff {n : Nat} : isLow n = true ↔ 0xDC00 ≤ n ∧ n ≤ 0xDFFF := by
  rw [isLow, Bool.and_eq_true, decide_eq_true_eq, decide_eq_true_eq]

theorem Json.isLow_eq_false_of_isHigh {n : Nat} (h : isHigh n = true) : isLow n = false := by
  rw [isHigh_iff] at h
  rw [← Bool.not_eq_true, isLow_iff]
  omega

theorem Letter.char_range (c : Char) : c.toNat < 0xD800 ∨ 0xDFFF < c.toNat ∧ c.toNat < 0x110000 :=
  c.valid

theorem Json.not_half_char (c : Char) : isHigh c.toNat = false ∧ isLow c.toNat = false := by
  have hrange := Letter.char_range c
  rw [← Bool.not_eq_true, ← Bool.not_eq_true, isHigh_iff, isLow_iff]
  omega

namespace Letter

theorem isHigh_eq (l : Letter) : l.isHigh = Json.isHigh l.toNat := by
  cases l with
  | half n =>
    rw [Bool.eq_iff_iff, Json.isHigh_iff, isHigh, decide_eq_true_eq, toNat]
    omega
  | char c => exact (Json.not_half_char c).1.symm

theorem isLow_eq (l : Letter) : l.isLow = Json.isLow l.toNat := by
  cases l with
  | half n =>
    have hn := n.isLt
    rw [Bool.eq_iff_iff, Json.isLow_iff, isLow, decide_eq_true_eq, toNat]
    omega
  | char c => exact (Json.not_half_char c).2.symm

theorem isLow_eq_false_of_isHigh {l : Letter} (h : l.isHigh = true) : l.isLow = false := by
  rw [isLow_eq]
  exact Json.isLow_eq_false_of_isHigh (l.isHigh_eq ▸ h)

theorem isHigh_ofNat (n : Nat) : (ofNat n).isHigh = Json.isHigh n := by
  rcases Nat.lt_or_ge n 0x110000 with h | h
  · rw [isHigh_eq, toNat_ofNat h]
  · rw [ofNat_of_le h, isHigh, Eq.comm, ← Bool.not_eq_true, Json.isHigh_iff]
    omega

theorem isLow_ofNat (n : Nat) : (ofNat n).isLow = Json.isLow n := by
  rcases Nat.lt_or_ge n 0x110000 with h | h
  · rw [isLow_eq, toNat_ofNat h]
  · rw [ofNat_of_le h, isLow, Eq.comm, ← Bool.not_eq_true, Json.isLow_iff]
    omega

end Letter

namespace Json

/-! ### Units -/

theorem hexValue?_hexDigit (d : Nat) : hexValue? (Text.hexDigit d) = some (d % 16) := by
  have h : ∀ k < 16, hexValue? ("0123456789abcdef".toList.getD k '0') = some k := by decide
  exact h _ (Nat.mod_lt d (by norm_num))

/-- A unit is written in four digits. -/
theorem exists_escapeUnit {n : Nat} (hn : n < 0x10000) :
    ∃ a b c d, escapeUnit n = ['\\', 'u', a, b, c, d] ∧ unit? a b c d = some n := by
  refine ⟨_, _, _, _, rfl, ?_⟩
  simp only [unit?, hexValue?_hexDigit, Option.bind_eq_bind, Option.bind_some, Option.pure_def]
  congr 1
  omega

/-! ### Letters -/

/-- More code points in front of those that were read. -/
def ahead (ns : List Nat) (o : Option (List Nat × List Char)) : Option (List Nat × List Char) :=
  o.map fun p => (ns ++ p.1, p.2)

section Steps

variable {a b c d : Char} {n : Nat} (r : List Char)

theorem codes_low {h : Nat} (hu : unit? a b c d = some n) (hn : isLow n = true) :
    codes (some h) ('\\' :: 'u' :: a :: b :: c :: d :: r) = ahead [join h n] (codes none r) := by
  rw [codes]
  simp only [hu, Option.bind_eq_bind, Option.bind_some, hn, if_true]
  cases codes none r <;> rfl

theorem codes_high (hu : unit? a b c d = some n) (hn : isHigh n = true) (p : Option Nat) :
    codes p ('\\' :: 'u' :: a :: b :: c :: d :: r) = ahead p.toList (codes (some n) r) := by
  have hlow := isLow_eq_false_of_isHigh hn
  rw [codes]
  simp only [hu, Option.bind_eq_bind, Option.bind_some, hn, hlow, Bool.false_eq_true, if_false,
    if_true]
  cases p <;> cases codes (some n) r <;> rfl

theorem codes_unit {p : Option Nat} (hu : unit? a b c d = some n) (hn : isHigh n = false)
    (hp : ∀ h ∈ p, isLow n = false) :
    codes p ('\\' :: 'u' :: a :: b :: c :: d :: r) = ahead (p.toList ++ [n]) (codes none r) := by
  rw [codes]
  simp only [hu, Option.bind_eq_bind, Option.bind_some, hn, Bool.false_eq_true, if_false]
  cases p with
  | none => cases codes none r <;> rfl
  | some h =>
    simp only [hp h rfl, Bool.false_eq_true, if_false]
    cases codes none r <;> rfl

theorem codes_escaped {e : Char} (hc : simpleEscape? c = some e) (hu : c ≠ 'u') (p : Option Nat) :
    codes p ('\\' :: c :: r) = ahead (p.toList ++ [e.toNat]) (codes none r) := by
  rw [codes]
  · simp only [hc, Option.bind_eq_bind, Option.bind_some]
    cases p <;> cases codes none r <;> rfl
  · rintro _ _ _ _ _ rfl
    exact absurd rfl hu

theorem codes_plain (h1 : c ≠ '"') (h2 : c ≠ '\\') (h3 : 0x20 ≤ c.toNat) (p : Option Nat) :
    codes p (c :: r) = ahead (p.toList ++ [c.toNat]) (codes none r) := by
  rw [codes]
  · rw [if_neg (not_or.mpr ⟨by omega, h2⟩)]
    simp only [Option.bind_eq_bind]
    cases p <;> cases codes none r <;> rfl
  · exact h1
  · rintro _ _ _ _ _ rfl
    exact absurd rfl h2
  · rintro _ _ rfl
    exact absurd rfl h2

end Steps

theorem ahead_ahead (ns ns' : List Nat) (o : Option (List Nat × List Char)) :
    ahead ns (ahead ns' o) = ahead (ns ++ ns') o := by
  cases o with
  | none => rfl
  | some p => exact congrArg (fun l => some (l, p.2)) (List.append_assoc ..).symm

/-- Two units that are the halves of a pair join. -/
theorem codes_pair {h n : Nat} (hhigh : isHigh h = true) (hlow : isLow n = true) (p : Option Nat)
    (r : List Char) :
    codes p (escapeUnit h ++ escapeUnit n ++ r) =
      ahead (p.toList ++ [join h n]) (codes none r) := by
  obtain ⟨x, y, z, w, hu, hunit⟩ :=
    exists_escapeUnit (Nat.lt_of_le_of_lt (isHigh_iff.mp hhigh).2 (by norm_num))
  obtain ⟨x', y', z', w', hu', hunit'⟩ :=
    exists_escapeUnit (Nat.lt_of_le_of_lt (isLow_iff.mp hlow).2 (by norm_num))
  rw [hu, hu']
  show codes p ('\\' :: 'u' :: x :: y :: z :: w :: '\\' :: 'u' :: x' :: y' :: z' :: w' :: r) = _
  rw [codes_high _ hunit hhigh, codes_low _ hunit' hlow, ahead_ahead]

/-- The text of a character is read as this character, whatever half stands in front of it. -/
theorem codes_escape_char (p : Option Nat) (c : Char) (r : List Char) :
    codes p (escape (.char c) ++ r) = ahead (p.toList ++ [c.toNat]) (codes none r) := by
  have hrange := Letter.char_range c
  unfold escape
  simp only
  -- the characters that have a name of their own behind the backslash
  iterate 7
    split
    · next h =>
      subst h
      exact codes_escaped r rfl (by decide) p
  split
  · next hquote hslash _ _ _ _ _ h => exact codes_plain r hquote hslash h.1 p
  split
  · next h =>
    obtain ⟨x, y, z, w, hu, hunit⟩ := exists_escapeUnit h
    rw [hu]
    exact codes_unit r hunit (not_half_char c).1 fun _ _ => (not_half_char c).2
  · next h =>
    have hjoin : join (0xD800 + (c.toNat - 0x10000) / 0x400)
        (0xDC00 + (c.toNat - 0x10000) % 0x400) = c.toNat := by
      unfold join
      omega
    have hpair := codes_pair (h := 0xD800 + (c.toNat - 0x10000) / 0x400)
      (n := 0xDC00 + (c.toNat - 0x10000) % 0x400) (isHigh_iff.mpr (by omega))
      (isLow_iff.mpr (by omega)) p r
    rwa [hjoin] at hpair

section Halves

variable {l : Letter} (r : List Char)

theorem exists_escape_half (h : l.isHigh = true ∨ l.isLow = true) :
    ∃ a b c d, escape l = ['\\', 'u', a, b, c, d] ∧ unit? a b c d = some l.toNat := by
  cases l with
  | half n =>
    have hn := n.isLt
    exact exists_escapeUnit (show 0xD800 + n.val < 0x10000 by omega)
  | char c => exact absurd h (by rintro (h | h) <;> cases h)

/-- A first half waits for what follows. -/
theorem codes_escape_high (h : l.isHigh = true) (p : Option Nat) :
    codes p (escape l ++ r) = ahead p.toList (codes (some l.toNat) r) := by
  obtain ⟨a, b, c, d, hu, hunit⟩ := exists_escape_half (.inl h)
  rw [hu]
  exact codes_high r hunit (l.isHigh_eq ▸ h) p

/-- A second half joins a first one that waits. -/
theorem codes_escape_low (h : l.isLow = true) (n : Nat) :
    codes (some n) (escape l ++ r) = ahead [join n l.toNat] (codes none r) := by
  obtain ⟨a, b, c, d, hu, hunit⟩ := exists_escape_half (.inr h)
  rw [hu]
  exact codes_low r hunit (l.isLow_eq ▸ h)

theorem codes_escape_other (hhigh : l.isHigh = false) (p : Option Nat)
    (hp : ∀ n ∈ p, l.isLow = false) :
    codes p (escape l ++ r) = ahead (p.toList ++ [l.toNat]) (codes none r) := by
  cases l with
  | char c => exact codes_escape_char p c r
  | half n =>
    have hn := n.isLt
    obtain ⟨a, b, c, d, hu, hunit⟩ :=
      exists_escapeUnit (show 0xD800 + n.val < 0x10000 by omega)
    rw [escape, hu]
    exact codes_unit r hunit (Letter.isHigh_eq (.half n) ▸ hhigh)
      fun m hm => Letter.isLow_eq (.half n) ▸ hp m hm

end Halves

/-! ### Texts -/

/-- The letters are read back with their halves put together.  The induction goes on with a first
half that waits. -/
theorem codes_flatMap_escape (ls : List Letter) (r : List Char) :
    codes none (ls.flatMap escape ++ '"' :: r) = some ((Text.mend ls).map Letter.toNat, r) := by
  have hall : codes none (ls.flatMap escape ++ '"' :: r) =
        some ((Text.mend ls).map Letter.toNat, r) ∧
      ∀ h : Letter, h.isHigh = true → codes (some h.toNat) (ls.flatMap escape ++ '"' :: r) =
        some ((Text.mend (h :: ls)).map Letter.toNat, r) := by
    induction ls with
    | nil =>
      simp only [List.flatMap_nil, List.nil_append, codes]
      exact ⟨rfl, fun _ _ => rfl⟩
    | cons l ls ih =>
      obtain ⟨hnone, hsome⟩ := ih
      rw [List.flatMap_cons, List.append_assoc]
      cases hhigh : l.isHigh with
      | true =>
        have hlow := Letter.isLow_eq_false_of_isHigh hhigh
        refine ⟨?_, fun h _ => ?_⟩
        · rw [codes_escape_high _ hhigh, hsome l hhigh]
          rfl
        · have hmend : Text.mend (h :: l :: ls) = h :: Text.mend (l :: ls) :=
            Text.mend_cons fun b hb _ => Option.some.inj hb ▸ hlow
          rw [codes_escape_high _ hhigh, hsome l hhigh, hmend]
          rfl
      | false =>
        have hself : Text.mend (l :: ls) = l :: Text.mend ls :=
          Text.mend_cons fun _ _ h => absurd (hhigh ▸ h) Bool.false_ne_true
        refine ⟨?_, fun h hh => ?_⟩
        · rw [codes_escape_other _ hhigh none (fun _ h => nomatch h), hnone, hself]
          rfl
        · cases hlow : l.isLow with
          | true =>
            have hjoin : (Letter.ofNat (join h.toNat l.toNat)).toNat = join h.toNat l.toNat := by
              rw [Letter.isHigh_eq, isHigh_iff] at hh
              rw [Letter.isLow_eq, isLow_iff] at hlow
              exact Letter.toNat_ofNat (by unfold join; omega)
            rw [codes_escape_low _ hlow, hnone, Text.mend_pair hh hlow, List.map_cons, hjoin]
            rfl
          | false =>
            have hmend : Text.mend (h :: l :: ls) = h :: Text.mend (l :: ls) :=
              Text.mend_cons fun b hb _ => Option.some.inj hb ▸ hlow
            rw [codes_escape_other _ hhigh _ (fun _ _ => hlow), hnone, hmend, hself]
            rfl
  exact hall.1

/-- A text is read back behind its first quotation mark, with its halves put together. -/
theorem quotedText_text (s : Text) (r : List Char) :
    quotedText (s.toList.flatMap escape ++ '"' :: r) = .ok (s.mended, r) := by
  have hs : textOfCodes ((Text.mend s.toList).map Letter.toNat) = s.mended := by
    refine congrArg Text.ofList ?_
    rw [List.map_map]
    exact (List.map_congr_left fun l _ => l.ofNat_toNat).trans (List.map_id _)
  rw [quotedText, codes_flatMap_escape]
  show Except.ok (textOfCodes ((Text.mend s.toList).map Letter.toNat), r) = _
  rw [hs]

end Json

end Notebook
