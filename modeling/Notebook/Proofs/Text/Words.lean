import Notebook.Proofs.Basic
import Notebook.Text.Blank

/-!
# Words of texts

There are few blanks, so what holds of them all is decided.  A blank between two texts keeps their
words apart.  Characters that are replaced one by one, blanks by blanks and others by others, leave
the words in their places.  Pieces are what is joined again by the character at which they were cut.
-/

namespace Notebook.Text

/-- What holds of the first characters is decided on their codes. -/
theorem forall_of_toNat_lt {n : Nat} {P : Letter → Prop} (h : ∀ k < n, P (Letter.ofNat k))
    {c : Letter} (hc : c.toNat < n) : P c := by
  have hcode := h c.toNat hc
  rwa [Letter.ofNat_toNat] at hcode

/-! ### Blanks -/

/-- All blanks. -/
def blanks : List Letter :=
  (List.range' 0x9 5 ++ List.range' 0x1C 5 ++ [0x85, 0xA0, 0x1680] ++ List.range' 0x2000 11 ++
    [0x2028, 0x2029, 0x202F, 0x205F, 0x3000]).map Letter.ofNat

theorem mem_blanks {c : Letter} (h : isBlank c = true) : c ∈ blanks := by
  refine List.mem_map.mpr ⟨c.toNat, ?_, Letter.ofNat_toNat c⟩
  simp only [isBlank, Bool.or_eq_true, Bool.and_eq_true, decide_eq_true_eq, beq_iff_eq] at h
  simp only [List.mem_append, List.mem_range'_1, List.mem_cons, List.not_mem_nil, or_false]
  omega

/-- What is the same for the listed blanks is the same for every blank. -/
theorem eq_of_isBlank {β : Type} {f g : Letter → β} (h : blanks.map f = blanks.map g) {c : Letter}
    (hc : isBlank c = true) : f c = g c :=
  List.map_inj_left.mp h c (mem_blanks hc)

/-! ### Words -/

theorem wordsOf_map {f : Letter → Letter} (hf : ∀ c, isBlank (f c) = isBlank c) (cs : List Letter) :
    wordsOf (cs.map f) = (wordsOf cs).map (List.map f) := by
  have hblank : isBlank ∘ f = isBlank := funext hf
  unfold wordsOf
  rw [splitOnP_map, hblank, List.filter_map]
  congr 2
  funext w
  simp

theorem wordsOf_append {c : Letter} (hc : isBlank c = true) (cs ds : List Letter) :
    wordsOf (cs ++ c :: ds) = wordsOf cs ++ wordsOf ds := by
  unfold wordsOf
  rw [List.splitOnP_append_cons cs ds hc, List.filter_append]

theorem words_append_space (s t : Text) : words (s ++ " " ++ t) = words s ++ words t := by
  have hspace : (s ++ " " ++ t).toList = s.toList ++ .char ' ' :: t.toList := by simp
  rw [words, hspace, wordsOf_append (by decide), List.map_append]
  rfl

theorem wordsOf_cons_of_blank {c : Letter} (hc : isBlank c = true) (cs : List Letter) :
    wordsOf (c :: cs) = wordsOf cs := wordsOf_append hc [] cs

/-- Where there is a character that is no blank there is a word. -/
theorem wordsOf_cons_ne_nil {c : Letter} (hc : isBlank c = false) (cs : List Letter) :
    wordsOf (c :: cs) ≠ [] := by
  unfold wordsOf
  rw [List.splitOnP_cons_eq_if_modifyHead, hc]
  cases h : cs.splitOnP isBlank with
  | nil => exact absurd h (List.splitOnP_ne_nil isBlank cs)
  | cons w ws => simp

theorem words_eq_nil_iff (s : Text) : words s = [] ↔ isBlankText s = true := by
  unfold words isBlankText
  rw [List.map_eq_nil_iff]
  induction s.toList with
  | nil => simp
  | cons c cs ih =>
    cases hc : isBlank c with
    | true => rw [wordsOf_cons_of_blank hc, ih, List.all_cons, hc, Bool.true_and]
    | false => simp [wordsOf_cons_ne_nil hc, hc]

/-- A text without blanks is one word, or none. -/
theorem wordsOf_of_no_blank {cs : List Letter} (h : ∀ c ∈ cs, isBlank c = false) :
    wordsOf cs = if cs.isEmpty then [] else [cs] := by
  rw [wordsOf, List.splitOnP_eq_singleton h]
  cases cs <;> rfl

/-- A word is not empty, and no blank is in it. -/
theorem of_mem_words {s w : Text} (h : w ∈ words s) :
    w.toList ≠ [] ∧ ∀ c ∈ w.toList, isBlank c = false := by
  obtain ⟨l, hl, rfl⟩ := List.mem_map.mp h
  obtain ⟨hpiece, hne⟩ := List.mem_filter.mp hl
  rw [Text.toList_ofList]
  exact ⟨by simpa using hne, forall_of_mem_splitOnP hpiece⟩

theorem pieces_eq_iff {α : Type} [BEq α] [LawfulBEq α] {sep : α} {cs a b c : List α} :
    pieces sep cs = [a, b, c] ↔
      cs = a ++ sep :: b ++ sep :: c ∧ sep ∉ a ∧ sep ∉ b ∧ sep ∉ c := by
  have hjoin : [sep].intercalate [a, b, c] = a ++ sep :: b ++ sep :: c := by
    simp [List.intercalate]
  constructor
  · intro h
    have hnone : ∀ l ∈ [a, b, c], sep ∉ l := by
      intro l hl hmem
      rw [← h] at hl
      simpa using forall_of_mem_splitOnP hl sep hmem
    rw [← hjoin, ← h]
    exact ⟨(List.intercalate_splitOn sep).symm, hnone a (by simp), hnone b (by simp),
      hnone c (by simp)⟩
  · rintro ⟨rfl, ha, hb, hc⟩
    rw [← hjoin]
    refine List.splitOn_intercalate sep (fun l hl => ?_) (by simp)
    simp only [List.mem_cons, List.not_mem_nil, or_false] at hl
    rcases hl with rfl | rfl | rfl <;> assumption

end Notebook.Text
