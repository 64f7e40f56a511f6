import Notebook.Proofs.Decimal.Typed
import Notebook.Proofs.Query.Grammar
import Notebook.Query.Matching

/-!
# Queries in any case

A query that is written in small letters asks for the same as the query itself.  Its terms are other
texts, as they are kept the way they were written; what a note has to contain are their small
letters.
-/

namespace Notebook

open Text

/-! ### Dates -/

namespace Token

/-- A reading of at most two characters does not depend on the case of letters, if it knows only
some first characters, none of them a letter, and if the second is seen alike in both cases. -/
theorem map_toLower_congr {β : Type} {f : List Char → Option β} (firsts : List Char)
    (hfirsts : firsts.all (fun a => a ∉ letters) = true)
    (hnone : ∀ a ∉ firsts, ∀ b, f [a, b] = none)
    (hlong : ∀ a b c r, f (a :: b :: c :: r) = none)
    (hone : capitals.map (fun c => f [c.toLower]) = capitals.map fun c => f [c])
    (htwo : firsts.map (fun a => capitals.map fun c => f [a, c.toLower]) =
      firsts.map fun a => capitals.map fun c => f [a, c]) (cs : List Char) :
    f (cs.map Char.toLower) = f cs := by
  have hlower (a : Char) (ha : a ∈ firsts) (c : Char) : c.toLower = a ↔ c = a :=
    Decimal.toLower_eq_iff (by simpa using List.all_eq_true.mp hfirsts a ha) c
  match cs with
  | [] => rfl
  | [c] => exact Decimal.toLower_congr (f := fun c => f [c]) hone c
  | [a, b] =>
    show f [a.toLower, b.toLower] = f [a, b]
    by_cases ha : a ∈ firsts
    · rw [(hlower a ha a).mpr rfl]
      exact Decimal.toLower_congr (f := fun c => f [a, c]) (List.map_inj_left.mp htwo a ha) b
    · have ha' : a.toLower ∉ firsts := fun h => ha ((hlower _ h a).mp rfl ▸ h)
      rw [hnone _ ha, hnone _ ha']
  | a :: b :: c :: r => rw [List.map_cons, List.map_cons, List.map_cons, hlong, hlong]

theorem monthOf?_map_toLower (cs : List Char) :
    monthOf? (cs.map Char.toLower) = monthOf? cs := by
  refine map_toLower_congr ['1', '0'] (by decide) (fun a ha b => ?_)
    (fun a b c r => ?_) (by decide) (by decide) cs
  · simp_all [monthOf?]
  · simp [monthOf?]

theorem dayOf?_map_toLower (cs : List Char) : dayOf? (cs.map Char.toLower) = dayOf? cs := by
  refine map_toLower_congr ['3', '2', '1', '0'] (by decide) (fun a ha b => ?_)
    (fun a b c r => ?_) (by decide) (by decide +kernel) cs
  · simp_all [dayOf?]
  · simp [dayOf?]

theorem yearOf?_map_toLower (cs : List Char) : yearOf? (cs.map Char.toLower) = yearOf? cs := by
  have hdigits : digitValue? ∘ Char.toLower = digitValue? := funext Decimal.digitValue?_toLower
  unfold yearOf?
  rw [List.length_map, List.mapM_map, hdigits]

theorem pieces_map_toLower {sep : Char} (hsep : sep ∉ letters) (cs : List Char) :
    pieces sep (cs.map Char.toLower) = (pieces sep cs).map (List.map Char.toLower) := by
  have hcomp : (· == sep) ∘ Char.toLower = (· == sep) := by
    funext c
    simpa using Decimal.toLower_eq_iff hsep c
  unfold pieces
  rw [splitOnP_map, hcomp]

theorem dateOf?_map_toLower (ls : List Letter) :
    dateOf? (ls.map Letter.toLower) = dateOf? ls := by
  unfold dateOf?
  rw [Decimal.chars?_map_toLower, Option.bind_map]
  refine congrArg _ (funext fun cs => ?_)
  rw [Function.comp_apply, pieces_map_toLower (by decide)]
  cases h : pieces '-' cs with
  | nil => rfl
  | cons y ps =>
    match ps with
    | [] | [m] | _ :: _ :: _ :: _ => rfl
    | [m, d] =>
      simp only [List.map_cons, List.map_nil, yearOf?_map_toLower, monthOf?_map_toLower,
        dayOf?_map_toLower]

theorem ratioOf?_map_toLower (ls : List Letter) :
    ratioOf? (ls.map Letter.toLower) = ratioOf? ls := by
  unfold ratioOf?
  rw [Decimal.readLetters?_map_toLower]

end Token

/-- The descriptor with its terms in small letters. -/
def Descriptor.uncapped (d : Descriptor) : Descriptor :=
  { d with
    textTerms := d.textTerms.map Text.uncapped
    semanticTerms := d.semanticTerms.map Text.uncapped }

/-- What a note has to contain are the small letters of the terms. -/
theorem Descriptor.accepts_uncapped (d : Descriptor) (now : Moment) (n : Note) :
    d.uncapped.accepts now n = d.accepts now n := by
  have hterm : (fun term : Text => occursIn (lowerChars term.toList) n.searchableText.toList) ∘
      Text.uncapped = fun term => occursIn (lowerChars term.toList) n.searchableText.toList := by
    funext term
    simp [lowerChars_map_toLower]
  have htext : d.uncapped.acceptsText n = d.acceptsText n := by
    simp only [acceptsText, Descriptor.uncapped, List.all_map, hterm]
  unfold accepts
  rw [htext]
  rfl

namespace Query

/-! ### Words -/

section Words

variable {word : Text}

theorem body_uncapped (r : Rule) :
    r.body (Text.uncapped word) = (r.body word).map Letter.toLower := by
  simp [Rule.body, List.map_drop]

/-- A word fits a shape in any letters, if the mark of the shape is no letter. -/
theorem fits_uncapped {shape : Shape}
    (hmark : ∀ mark, shape = .mark mark → ∃ c ∉ letters, mark = .char c) :
    shape.fits (Text.uncapped word) = shape.fits word := by
  cases shape with
  | mark c =>
    obtain ⟨c, hc, rfl⟩ := hmark c rfl
    simp only [Shape.fits, toList_uncapped, List.head?_map, decide_eq_decide]
    cases word.toList.head? with
    | none => rfl
    | some a =>
      have ha : a.toLower = .char c ↔ a = .char c := toLower_eq_iff hc a
      simpa using ha
  | name names => simp only [Shape.fits, toList_uncapped, lowerChars_map_toLower]
  | operator text => simp only [Shape.fits, toList_uncapped, lowerChars_map_toLower]
  | any => rfl

theorem ofWord_uncapped : Rule.ofWord (Text.uncapped word) = Rule.ofWord word := by
  have hmark : ∀ (r : Rule) (mark : Letter), r.shape = .mark mark →
      ∃ c ∉ letters, mark = .char c := by
    intro r mark h
    cases r <;> cases h <;> exact ⟨_, by decide, rfl⟩
  have hfits : (fun r : Rule => r.shape.fits (Text.uncapped word)) =
      fun r => r.shape.fits word := funext fun r => fits_uncapped (hmark r)
  unfold Rule.ofWord
  rw [hfits]

theorem tagOf_uncapped : tagOf (Text.uncapped word) = tagOf word := by
  rw [tagOf, body_uncapped, lowerChars_map_toLower]
  rfl

theorem termOf_uncapped : termOf (Text.uncapped word) = Text.uncapped (termOf word) := by
  rw [termOf, body_uncapped, termOf, Text.uncapped, Text.toList_ofList]

theorem priorityOf?_uncapped : priorityOf? (Text.uncapped word) = priorityOf? word := by
  rw [priorityOf?, toList_uncapped, lowerChars_map_toLower]
  rfl

theorem ratioOf?_uncapped : ratioOf? (Text.uncapped word) = ratioOf? word := by
  rw [ratioOf?, body_uncapped, Token.ratioOf?_map_toLower]
  rfl

theorem dateOf?_uncapped : dateOf? (Text.uncapped word) = dateOf? word := by
  rw [dateOf?, body_uncapped, Token.dateOf?_map_toLower]
  rfl

/-- A word is of the same class in small letters. -/
theorem classOf_uncapped (word : Text) : classOf (Text.uncapped word) = classOf word := by
  have htakes (r : Rule) : r.takes (Text.uncapped word) = r.takes word := by
    cases r <;> simp [Rule.takes, body_uncapped, priorityOf?_uncapped, ratioOf?_uncapped,
      dateOf?_uncapped]
  rw [classOf, ofWord_uncapped, htakes]
  rfl

end Words

/-! ### Queries -/

theorem wordsIn_uncapped (k : Option Rule) (ws : List Text) :
    wordsIn k (ws.map Text.uncapped) = (wordsIn k ws).map Text.uncapped := by
  have hclass : (fun w => decide (classOf w = k)) ∘ Text.uncapped =
      fun w => decide (classOf w = k) := by
    funext w
    simp only [Function.comp_apply, classOf_uncapped]
  unfold wordsIn
  rw [List.filter_map, hclass]

theorem any_uncapped (k : Option Rule) (ws : List Text) :
    (ws.map Text.uncapped).any (classOf · = k) = ws.any (classOf · = k) := by
  simp [List.any_map, Function.comp_def, classOf_uncapped]

theorem getLast?_uncapped {β : Type} {value : Text → Option β}
    (hvalue : ∀ w, value (Text.uncapped w) = value w) (ws : List Text) :
    (ws.map Text.uncapped).getLast?.bind value = ws.getLast?.bind value := by
  rw [List.getLast?_map, Option.bind_map]
  exact congrArg _ (funext hvalue)

/-- The query with its terms and its discarded words in small letters. -/
def uncapped (q : Query) : Query :=
  ⟨q.descriptor.uncapped, q.discarded.map Text.uncapped⟩

/-- The same words in small letters ask for the same. -/
theorem described_uncapped (ws : List Text) :
    described (ws.map Text.uncapped) = (described ws).uncapped := by
  have htags : ((wordsIn (some .tag) ws).map Text.uncapped).map tagOf =
      (wordsIn (some .tag) ws).map tagOf := by
    simp [tagOf_uncapped]
  have hterms : ((wordsIn (some .semantic) ws).map Text.uncapped).map termOf =
      ((wordsIn (some .semantic) ws).map termOf).map Text.uncapped := by
    simp [termOf_uncapped]
  simp only [described, Query.uncapped, Descriptor.uncapped, wordsIn_uncapped, any_uncapped,
    getLast?_uncapped fun _ => priorityOf?_uncapped, getLast?_uncapped fun _ => ratioOf?_uncapped,
    getLast?_uncapped fun _ => dateOf?_uncapped, htags, hterms]

theorem parse_uncapped (q : Text) : parse (Text.uncapped q) = (parse q).uncapped := by
  unfold parse tokens
  rw [ofTokens_words, ofTokens_words, words_uncapped, described_uncapped]

end Query

end Notebook
