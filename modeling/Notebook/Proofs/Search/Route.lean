import Mathlib.Data.List.Induction
import Notebook.Proofs.Search.Lexical
import Notebook.Proofs.Text.Words

/-!
# How queries are answered

A blank query is told by its words, and one of invalid words by its tokens.  Any other query is
answered by what its descriptor asks.  While nothing is remembered, an answer word by word depends
on nothing but the notes that the descriptor accepts.
-/

namespace Notebook

/-! ### Invalid words -/

namespace Token

def isInvalid : Token → Bool
  | invalid _ => true
  | _ => false

end Token

namespace Query

theorem length_discarded (ts : List Token) :
    (ofTokens ts).discarded.length = ts.countP Token.isInvalid := by
  induction ts using List.reverseRecOn with
  | nil => rfl
  | append_singleton ts t ih =>
    rw [ofTokens_concat, List.countP_append, ← ih]
    cases t <;> simp [add, Token.isInvalid]

theorem length_tokens (q : Text) : (tokens q).length = (Text.words q).length :=
  List.length_map Token.ofWord

/-- All words that are there were set aside just if every token is invalid. -/
theorem allDiscarded_iff {q : Text} (hwords : Text.words q ≠ []) :
    (!(parse q).discarded.isEmpty && (parse q).discarded.length == (Text.words q).length) = true ↔
      ∀ t ∈ tokens q, t.isInvalid = true := by
  have hpos : (Text.words q).length ≠ 0 := fun h => hwords (List.length_eq_zero_iff.mp h)
  rw [← List.countP_eq_length, length_tokens, ← length_discarded]
  show (!(parse q).discarded.isEmpty && _) = true ↔ (parse q).discarded.length = _
  simp only [Bool.and_eq_true, Bool.not_eq_true', List.isEmpty_eq_false_iff, beq_iff_eq]
  constructor
  · exact And.right
  · refine fun h => ⟨fun hnil => hpos ?_, h⟩
    rw [← h, hnil, List.length_nil]

end Query

namespace Searcher

/-! ### Routes -/

/-- The route of a query with valid tokens. -/
def routeOf (semanticMode : Bool) (d : Descriptor) : Route :=
  match meaningTerms semanticMode d with
  | [] => .words d
  | terms => .meaning (Text.intercalate " " terms)

variable {semanticMode : Bool} {q : Text}

theorem route_of_blank (h : Text.words q = []) : route semanticMode q = .everything := by
  rw [route, if_pos ((Text.words_eq_nil_iff q).mp h)]

theorem route_of_invalid (hwords : Text.words q ≠ [])
    (h : ∀ t ∈ Query.tokens q, t.isInvalid = true) : route semanticMode q = .nothing := by
  have hblank : ¬ Text.isBlankText q = true := fun h => hwords ((Text.words_eq_nil_iff q).mpr h)
  rw [route, if_neg hblank]
  exact if_pos ((Query.allDiscarded_iff hwords).mpr h)

theorem route_of_valid (hwords : Text.words q ≠ [])
    (h : ¬ ∀ t ∈ Query.tokens q, t.isInvalid = true) :
    route semanticMode q = routeOf semanticMode (Query.parse q).descriptor := by
  have hblank : ¬ Text.isBlankText q = true := fun h => hwords ((Text.words_eq_nil_iff q).mpr h)
  rw [route, if_neg hblank]
  exact if_neg fun hall => h ((Query.allDiscarded_iff hwords).mp hall)

/-! ### Answers -/

variable {α : Type} {note : α → Note} {s : Searcher} {clock : Clock} {items : List α}

/-- What is found word by word while nothing is remembered. -/
theorem search_of_words {d : Descriptor} (hempty : s.cache.entries = [])
    (hroute : route s.semanticMode q = .words d) :
    (s.search note clock q items).1 =
      .ok ((acceptedIds note d clock.wall items).filterMap (lastWithId? note items)) := by
  have hmiss : s.cache.fresh? clock.seconds q = none := by simp [Cache.fresh?, hempty]
  simp only [search, hroute, lexicalSearch_miss note hmiss]

/-- Descriptors that accept the same notes find the same ids. -/
theorem acceptedIds_congr {d d' : Descriptor} {now : Moment}
    (h : ∀ n, d.accepts now n = d'.accepts now n) (items : List α) :
    acceptedIds note d now items = acceptedIds note d' now items := by
  unfold acceptedIds
  simp only [h]

end Searcher

end Notebook
