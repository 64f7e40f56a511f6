import Notebook.Proofs.Query.Grammar
import Notebook.Proofs.Text.PlainCase

/-!
# Words with an operator

A word that begins with an operator, in letters of any case, goes by the rule of the operator, and
what stands behind is what the word brings, as it was written: behind `progress:>` a number and
behind `due:` a day.
-/

namespace Notebook

open Text

namespace Text

/-- Letters that are small already stay at the start of the small letters of a text. -/
theorem exists_lowerFrom_append {start : List Letter}
    (hsmall : ∀ c ∈ start, c ≠ 'Σ' ∧ c ≠ 'İ' ∧ lowerChar c = c) (cased : Bool) (cs : List Letter) :
    ∃ rest, lowerFrom cased (start ++ cs) = start ++ rest := by
  induction start generalizing cased with
  | nil => exact ⟨lowerFrom cased cs, rfl⟩
  | cons c start ih =>
    obtain ⟨⟨hsigma, hdot, hc⟩, hstart⟩ := List.forall_mem_cons.mp hsmall
    obtain ⟨rest, hrest⟩ := ih hstart (casedAfter cased c)
    refine ⟨rest, ?_⟩
    rw [List.cons_append, lowerFrom_cons, lowerAt_of_ne hsigma hdot, hc, hrest]
    rfl

end Text

namespace Query

variable {r : Rule} {text op : Text}

theorem exists_lowerChars_operator (hr : r.shape = .operator text)
    (hop : op.toList.map Letter.toLower = text.toList) (v : Text) :
    ∃ rest, lowerChars (op ++ v).toList = text.toList ++ rest := by
  have hall : text.toList.all (fun c => c ≠ 'Σ' ∧ c ≠ 'İ' ∧ lowerChar c = c) = true := by
    cases r <;> cases hr <;> decide +kernel
  have hsmall : ∀ c ∈ text.toList, c ≠ 'Σ' ∧ c ≠ 'İ' ∧ lowerChar c = c := fun c hc =>
    of_decide_eq_true (List.all_eq_true.mp hall c hc)
  rw [← lowerChars_map_toLower, Text.toList_append, List.map_append, hop]
  exact exists_lowerFrom_append hsmall false _

/-- What an operator is seen in is neither a tag nor a semantic term. -/
theorem head?_ne_of_operator {word : Text} {rest : List Letter} (hr : r.shape = .operator text)
    (hlow : lowerChars word.toList = text.toList ++ rest) :
    word.toList.head? ≠ some (.char '#') ∧ word.toList.head? ≠ some (.char '~') := by
  constructor
  all_goals
    intro h
    obtain ⟨cs, hcs⟩ := List.head?_eq_some_iff.mp h
    rw [hcs, lowerChars, lowerFrom_cons] at hlow
    cases r <;> cases hr <;> exact absurd (List.cons_eq_cons.mp hlow).1 (by decide)

theorem ofWord_of_operator (hr : r.shape = .operator text)
    (hop : op.toList.map Letter.toLower = text.toList) (v : Text) : Rule.ofWord (op ++ v) = r := by
  obtain ⟨rest, hlow⟩ := exists_lowerChars_operator hr hop v
  generalize op ++ v = word at hlow ⊢
  obtain ⟨htag, hsemantic⟩ := head?_ne_of_operator hr hlow
  cases r <;> cases hr
  all_goals
    simp [Rule.ofWord, Rule.all, Rule.shape, Shape.fits, hlow, htag, hsemantic, List.find?,
      List.isPrefixOf]

theorem body_of_operator (hr : r.shape = .operator text)
    (hop : op.toList.map Letter.toLower = text.toList) (v : Text) :
    r.body (op ++ v) = v.toList := by
  have hlength : op.toList.length = text.length := by
    rw [← Text.length_toList, ← hop, List.length_map]
  rw [Rule.body, hr, Text.toList_append]
  exact List.drop_left' hlength

/-! ### The operators that are followed by a number or by a date -/

theorem token_progress (hop : op.toList.map Letter.toLower = ("progress:>" : Text).toList)
    (v : Text) : Token.ofWord (op ++ v) =
      ((Token.ratioOf? v.toList).map Token.progress).getD (.invalid (op ++ v)) := by
  have hr : Rule.progress.shape = .operator "progress:>" := rfl
  rw [token_ofWord, ofWord_of_operator hr hop, Rule.token, ratioOf?, body_of_operator hr hop]

theorem token_due (hop : op.toList.map Letter.toLower = ("due:" : Text).toList) (v : Text) :
    Token.ofWord (op ++ v) =
      ((Token.dateOf? v.toList).map Token.due).getD (.invalid (op ++ v)) := by
  have hr : Rule.due.shape = .operator "due:" := rfl
  rw [token_ofWord, ofWord_of_operator hr hop, Rule.token, dateOf?, body_of_operator hr hop]

/-- A word behind `due:` is discarded just where it is no date. -/
theorem mem_discarded_due_iff {raw v : Text}
    (hop : op.toList.map Letter.toLower = ("due:" : Text).toList) :
    op ++ v ∈ (parse raw).discarded ↔
      op ++ v ∈ words raw ∧ Token.dateOf? v.toList = none := by
  have hr : Rule.due.shape = .operator "due:" := rfl
  have hclass : classOf (op ++ v) = none ↔ Token.dateOf? v.toList = none := by
    simp [classOf, ofWord_of_operator hr hop, Rule.takes, dateOf?, body_of_operator hr hop]
  have hdiscarded : (parse raw).discarded = wordsIn none (words raw) :=
    congrArg Query.discarded (ofTokens_words (words raw))
  rw [hdiscarded, wordsIn, List.mem_filter, decide_eq_true_eq, hclass]

end Query

end Notebook
