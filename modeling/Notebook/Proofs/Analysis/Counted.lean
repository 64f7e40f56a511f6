import Notebook.Analysis.Statistics

/-!
# Statistics of joined texts

A line break ends every word, and two of them end every paragraph, however many more stand before
or behind them.  So the words, characters, enders and full paragraphs of two texts with two line
breaks between them add up.  What is reported of sentences and paragraphs is never less than one;
there the sum is right just if both texts have an ender, or something that is no blank.
-/

namespace Notebook

namespace Statistics

open Text

/-! ### Words -/

theorem wordsFrom_append (p : Position) (a b : List Letter) :
    wordsFrom p (a ++ b) = wordsFrom p a + wordsFrom (a.foldl Position.after p) b := by
  induction a generalizing p with
  | nil => simp [wordsFrom]
  | cons c a ih => rw [List.cons_append, wordsFrom, wordsFrom, ih, List.foldl_cons, Nat.add_assoc]

theorem wordsFrom_break (p : Position) (cs : List Letter) :
    wordsFrom p (.char '\n' :: cs) = wordCount cs := by
  have hno : isWordChar '\n' = false := by decide
  have hafter : p.after '\n' = .outside := by cases p <;> decide
  rw [wordsFrom, hafter, hno, wordCount]
  simp

theorem wordCount_append_break (a b : List Letter) :
    wordCount (a ++ .char '\n' :: b) = wordCount a + wordCount b := by
  rw [wordCount, wordsFrom_append, wordsFrom_break, ← wordCount]

theorem wordCount_break (cs : List Letter) : wordCount (.char '\n' :: cs) = wordCount cs :=
  wordsFrom_break .outside cs

/-! ### Paragraphs -/

/-- How many pieces have something in them. -/
def fullPieces (ps : List (List Letter)) : Nat := ps.countP fun p => !p.all isBlank

theorem fullPieces_cons (p : List Letter) (ps : List (List Letter)) :
    fullPieces (p :: ps) = fullPieces ps + if p.all isBlank then 0 else 1 := by
  rw [fullPieces, List.countP_cons, ← fullPieces]
  cases p.all isBlank <;> rfl

theorem fullParagraphs_eq (cs : List Letter) :
    fullParagraphs cs = fullPieces (paragraphsOf cs) := rfl

theorem paragraphsOf_breaks (r : List Letter) :
    paragraphsOf (.char '\n' :: .char '\n' :: r) = [] :: paragraphsOf r := by
  rw [paragraphsOf, if_pos ⟨rfl, rfl⟩]

theorem paragraphsOf_cons {c d : Letter} (h : ¬ (c = '\n' ∧ d = '\n')) (r : List Letter) :
    paragraphsOf (c :: d :: r) = (paragraphsOf (d :: r)).modifyHead (c :: ·) := by
  rw [paragraphsOf, if_neg h]

theorem paragraphsOf_ne_nil (cs : List Letter) : paragraphsOf cs ≠ [] := by
  fun_induction paragraphsOf cs with
  | case1 => simp
  | case2 c => simp
  | case3 c d r h ih => simp
  | case4 c d r h ih => simpa using ih

theorem exists_paragraphsOf (cs : List Letter) : ∃ p ps, paragraphsOf cs = p :: ps :=
  List.exists_cons_of_ne_nil (paragraphsOf_ne_nil cs)

theorem fullParagraphs_breaks (r : List Letter) :
    fullParagraphs (.char '\n' :: .char '\n' :: r) = fullParagraphs r := by
  rw [fullParagraphs_eq, paragraphsOf_breaks, fullPieces_cons]
  rfl

/-- With one more line break at the beginning a text may be cut at other places, but the same
characters that are no blanks stand together. -/
theorem fullParagraphs_break (cs : List Letter) :
    fullParagraphs (.char '\n' :: cs) = fullParagraphs cs := by
  fun_induction paragraphsOf cs with
  | case1 => decide
  | case2 c =>
    by_cases hc : c = '\n'
    · subst hc
      decide
    · have hno : ¬ (Letter.char '\n' = '\n' ∧ c = '\n') := fun h => hc h.2
      rw [fullParagraphs_eq, paragraphsOf_cons hno]
      rfl
  | case3 c d r h ih =>
    obtain ⟨rfl, rfl⟩ := h
    rw [fullParagraphs_breaks, fullParagraphs_breaks, ih]
  | case4 c d r h ih =>
    by_cases hc : c = '\n'
    · subst hc
      rw [fullParagraphs_breaks, ih]
    · have hno : ¬ (Letter.char '\n' = '\n' ∧ c = '\n') := fun h => hc h.2
      obtain ⟨p, ps, hps⟩ := exists_paragraphsOf (c :: d :: r)
      rw [fullParagraphs_eq, paragraphsOf_cons hno, fullParagraphs_eq, hps, List.modifyHead_cons,
        fullPieces_cons, fullPieces_cons]
      rfl

/-- What follows two line breaks has paragraphs of its own, and the first piece before them is as
full as it was. -/
theorem exists_paragraphsOf_append (a b : List Letter) :
    ∃ p ps p' ps', paragraphsOf a = p :: ps ∧
      paragraphsOf (a ++ .char '\n' :: .char '\n' :: b) = p' :: ps' ∧
      p'.all isBlank = p.all isBlank ∧ fullPieces ps' = fullPieces ps + fullParagraphs b := by
  fun_induction paragraphsOf a with
  | case1 =>
    exact ⟨[], [], [], paragraphsOf b, rfl, paragraphsOf_breaks b, rfl, (Nat.zero_add _).symm⟩
  | case2 c =>
    by_cases hc : c = '\n'
    · subst hc
      refine ⟨[.char '\n'], [], [], paragraphsOf (.char '\n' :: b), rfl, paragraphsOf_breaks _,
        by decide, ?_⟩
      rw [← fullParagraphs_eq, fullParagraphs_break]
      exact (Nat.zero_add _).symm
    · refine ⟨[c], [], [c], paragraphsOf b, rfl, ?_, rfl, (Nat.zero_add _).symm⟩
      rw [List.singleton_append, paragraphsOf_cons fun h => hc h.1, paragraphsOf_breaks]
      rfl
  | case3 c d r h ih =>
    obtain ⟨rfl, rfl⟩ := h
    obtain ⟨p, ps, p', ps', hps, hps', hblank, hcount⟩ := ih
    refine ⟨[], p :: ps, [], p' :: ps', by rw [hps], ?_, rfl, ?_⟩
    · rw [List.cons_append, List.cons_append, paragraphsOf_breaks, hps']
    · rw [fullPieces_cons, fullPieces_cons, hblank, hcount, Nat.add_right_comm]
  | case4 c d r h ih =>
    obtain ⟨p, ps, p', ps', hps, hps', hblank, hcount⟩ := ih
    refine ⟨c :: p, ps, c :: p', ps', by rw [hps]; rfl, ?_, ?_, hcount⟩
    · rw [List.cons_append, List.cons_append, paragraphsOf_cons h, ← List.cons_append, hps']
      rfl
    · rw [List.all_cons, List.all_cons, hblank]

theorem fullParagraphs_append_breaks (a b : List Letter) :
    fullParagraphs (a ++ .char '\n' :: .char '\n' :: b) = fullParagraphs a + fullParagraphs b := by
  obtain ⟨p, ps, p', ps', hps, hps', hblank, hcount⟩ := exists_paragraphsOf_append a b
  rw [fullParagraphs_eq, fullParagraphs_eq a, hps, hps', fullPieces_cons, fullPieces_cons, hblank,
    hcount, Nat.add_right_comm]

/-- Nothing but line breaks is left out of the pieces. -/
theorem mem_paragraphsOf_iff {x : Letter} (hx : x ≠ '\n') (cs : List Letter) :
    (∃ p ∈ paragraphsOf cs, x ∈ p) ↔ x ∈ cs := by
  fun_induction paragraphsOf cs with
  | case1 => simp
  | case2 c => simp
  | case3 c d r h ih =>
    obtain ⟨rfl, rfl⟩ := h
    simp [hx, ih]
  | case4 c d r h ih =>
    obtain ⟨p, ps, hps⟩ := exists_paragraphsOf (d :: r)
    rw [hps] at ih ⊢
    rw [List.mem_cons, ← ih]
    simp [or_assoc]

theorem fullParagraphs_pos_iff (cs : List Letter) :
    0 < fullParagraphs cs ↔ ∃ c ∈ cs, isBlank c = false := by
  have hne {c : Letter} (hc : isBlank c = false) : c ≠ '\n' := by
    rintro rfl
    exact absurd hc (by decide)
  rw [fullParagraphs, List.countP_pos_iff]
  constructor
  · rintro ⟨p, hp, hfull⟩
    obtain ⟨c, hc, hblank⟩ : ∃ c ∈ p, isBlank c = false := by simpa using hfull
    exact ⟨c, (mem_paragraphsOf_iff (hne hblank) cs).mp ⟨p, hp, hc⟩, hblank⟩
  · rintro ⟨c, hc, hblank⟩
    obtain ⟨p, hp, hcp⟩ := (mem_paragraphsOf_iff (hne hblank) cs).mpr hc
    exact ⟨p, hp, by simpa using ⟨c, hcp, hblank⟩⟩

/-! ### What is reported -/

theorem countP_append_breaks {p : Letter → Bool} (hp : p '\n' = false) (a b : List Letter) :
    (a ++ .char '\n' :: .char '\n' :: b).countP p = a.countP p + b.countP p := by
  rw [List.countP_append, List.countP_cons_of_neg (by simp [hp]),
    List.countP_cons_of_neg (by simp [hp])]

/-- Where a count is reported as one at least, counts add up as reported just if neither is zero. -/
theorem max_one_add_iff (m n : Nat) : max 1 (m + n) = max 1 m + max 1 n ↔ 0 < m ∧ 0 < n := by
  omega

theorem sentences_ofText (cs : List Letter) :
    (ofText cs).sentences = max 1 (cs.countP isEnder) := by
  rw [ofText, sentenceCount]
  dsimp only
  split
  · next h => rw [h.1]; rfl
  · rfl

theorem wordsPerSentence_ofText (cs : List Letter) :
    (ofText cs).wordsPerSentence = quotient (ofText cs).words (ofText cs).sentences := by
  rw [ofText]
  dsimp only
  split
  · next h => rw [Nat.max_eq_right h]
  · next h =>
    -- without a sentence there are no words
    have hwords : wordCount cs = 0 := by
      refine Nat.eq_zero_of_not_pos fun hwords => h ?_
      rw [sentenceCount]
      split <;> omega
    rw [hwords, Nat.eq_zero_of_not_pos h]
    decide +kernel

/-- Words and characters of two texts add up over two line breaks.  Paragraphs do so as reported
just if both texts have something that is no blank, and sentences just if both have an ender.  No
text has no sentence, and its words are divided by its sentences. -/
theorem ofText_append_breaks (a b : List Letter) :
    (ofText (a ++ .char '\n' :: .char '\n' :: b)).words = (ofText a).words + (ofText b).words ∧
      (ofText (a ++ .char '\n' :: .char '\n' :: b)).characters =
        (ofText a).characters + (ofText b).characters ∧
      ((ofText (a ++ .char '\n' :: .char '\n' :: b)).paragraphs =
          (ofText a).paragraphs + (ofText b).paragraphs ↔
        (∃ c ∈ a, isBlank c = false) ∧ ∃ c ∈ b, isBlank c = false) ∧
      ((ofText (a ++ .char '\n' :: .char '\n' :: b)).sentences =
          (ofText a).sentences + (ofText b).sentences ↔
        (∃ c ∈ a, isEnder c = true) ∧ ∃ c ∈ b, isEnder c = true) ∧
      ∀ cs, (ofText cs).sentences ≠ 0 ∧
        (ofText cs).wordsPerSentence = quotient (ofText cs).words (ofText cs).sentences := by
  refine ⟨?_, ?_, ?_, ?_, fun cs => ⟨?_, wordsPerSentence_ofText cs⟩⟩
  · show wordCount _ = wordCount a + wordCount b
    rw [wordCount_append_break, wordCount_break]
  · exact countP_append_breaks (by decide) a b
  · show max 1 _ = max 1 (fullParagraphs a) + max 1 (fullParagraphs b) ↔ _
    rw [fullParagraphs_append_breaks, max_one_add_iff, fullParagraphs_pos_iff,
      fullParagraphs_pos_iff]
  · rw [sentences_ofText, sentences_ofText, sentences_ofText, countP_append_breaks (by decide),
      max_one_add_iff, List.countP_pos_iff, List.countP_pos_iff]
  · rw [sentences_ofText]
    omega

end Statistics

end Notebook
