import Mathlib.Data.List.Induction
import Mathlib.Data.List.Perm.Basic
import Notebook.Proofs.Text.Lowercase
import Notebook.Query.Parse

/-!
# The grammar of queries

Which words a query is made of can be said without any order of reading.  There are ten rules; a
word goes by the first of them that it fits, and is invalid if it does not bring what this rule
takes.  Every part of what a query asks for then comes from the words of one rule alone.
-/

namespace Notebook.Query

/-! ### Rules -/

/-- What a word looks like. -/
inductive Shape
  /-- It begins with a character. -/
  | mark (c : Letter)
  /-- In small letters it is one of some names. -/
  | name (names : List Text)
  /-- In small letters it begins with an operator. -/
  | operator (text : Text)
  | any

namespace Shape

def fits (word : Text) : Shape → Bool
  | mark c => word.toList.head? = some c
  | name names => names.any fun n => Text.lowerChars word.toList = n.toList
  | operator text => text.toList.isPrefixOf (Text.lowerChars word.toList)
  | any => true

/-- How many characters stand before what the word brings. -/
def length : Shape → Nat
  | mark _ => 1
  | operator text => text.length
  | _ => 0

end Shape

inductive Rule
  | tag
  | semantic
  | favorite
  | tasks
  | overdue
  | priority
  | progress
  | due
  | anyTag
  | free
  deriving DecidableEq

namespace Rule

def shape : Rule → Shape
  | tag => .mark '#'
  | semantic => .mark '~'
  | favorite => .name ["is:fav", "is:favorite"]
  | tasks => .name ["has:task", "has:tasks"]
  | overdue => .name ["is:overdue"]
  | priority => .operator "priority:"
  | progress => .operator "progress:>"
  | due => .operator "due:"
  | anyTag => .name ["tag:any"]
  | free => .any

/-- All rules; the one that is tried first comes first. -/
def all : List Rule :=
  [tag, semantic, favorite, tasks, overdue, priority, progress, due, anyTag, free]

/-- The rule that a word goes by. -/
def ofWord (word : Text) : Rule := (all.find? (·.shape.fits word)).getD free

/-- What a word brings, as it was written. -/
def body (r : Rule) (word : Text) : List Letter := word.toList.drop r.shape.length

end Rule

def tagOf (word : Text) : Text := Text.ofList (Text.lowerChars (Rule.tag.body word))

def termOf (word : Text) : Text := Text.ofList (Rule.semantic.body word)

/-- The level is looked for in the small letters of the word. -/
def priorityOf? (word : Text) : Option Priority :=
  Priority.ofName? (Text.ofList
    ((Text.lowerChars word.toList).drop Rule.priority.shape.length))

def ratioOf? (word : Text) : Option Float := Token.ratioOf? (Rule.progress.body word)

def dateOf? (word : Text) : Option Date := Token.dateOf? (Rule.due.body word)

/-- Does a word bring what a rule takes? -/
def Rule.takes (word : Text) : Rule → Bool
  | tag => !(Rule.tag.body word).isEmpty
  | semantic => !(Rule.semantic.body word).isEmpty
  | priority => (priorityOf? word).isSome
  | progress => (ratioOf? word).isSome
  | due => (dateOf? word).isSome
  | _ => true

/-- The class of a word: its rule, or none if the word is invalid. -/
def classOf (word : Text) : Option Rule :=
  if (Rule.ofWord word).takes word then some (Rule.ofWord word) else none

/-- The words of a class. -/
def wordsIn (k : Option Rule) (ws : List Text) : List Text := ws.filter (classOf · = k)

/-- What some words ask for, each part on its own. -/
def described (ws : List Text) : Query where
  descriptor :=
    { requiredTags := ((wordsIn (some .tag) ws).map tagOf).eraseDups
      tagMode := if ws.any (classOf · = some .anyTag) then .any else .all
      requireFavorite := ws.any (classOf · = some .favorite)
      requireTasks := ws.any (classOf · = some .tasks)
      requireOverdue := ws.any (classOf · = some .overdue)
      priority := (wordsIn (some .priority) ws).getLast?.bind priorityOf?
      minProgress := (wordsIn (some .progress) ws).getLast?.bind ratioOf?
      dueBefore := ((wordsIn (some .due) ws).getLast?.bind dateOf?).map Moment.ofDate
      textTerms := wordsIn (some .free) ws
      semanticTerms := (wordsIn (some .semantic) ws).map termOf }
  discarded := wordsIn none ws

/-! ### Words go by their rules -/

/-- The token of a word that goes by a rule. -/
def Rule.token (word : Text) : Rule → Token
  | tag => if (Rule.tag.body word).isEmpty then .invalid word else .tag (tagOf word)
  | semantic => if (Rule.semantic.body word).isEmpty then .invalid word else .semantic (termOf word)
  | favorite => .favorite
  | tasks => .tasks
  | overdue => .overdue
  | priority => ((priorityOf? word).map Token.priority).getD (.invalid word)
  | progress => ((ratioOf? word).map Token.progress).getD (.invalid word)
  | due => ((dateOf? word).map Token.due).getD (.invalid word)
  | anyTag => .anyTag
  | free => .free word

/-- A word with neither mark goes by the first of the other rules that it fits. -/
theorem token_ofOperator {word : Text} (htag : word.toList.head? ≠ some (.char '#'))
    (hsemantic : word.toList.head? ≠ some (.char '~')) :
    Token.ofOperator word = (Rule.ofWord word).token word := by
  simp only [Token.ofOperator, Token.after?, Rule.ofWord, Rule.all, List.find?, Rule.shape,
    Shape.fits, htag, hsemantic, decide_false, List.any_cons, List.any_nil, Bool.or_false,
    ← Bool.decide_or]
  generalize hlow : Text.lowerChars word.toList = low
  by_cases hfavorite : low = ("is:fav" : Text).toList ∨ low = ("is:favorite" : Text).toList
  · simp only [hfavorite, if_true, decide_true, Option.getD_some, Rule.token]
  simp only [hfavorite, if_false, decide_false]
  by_cases htasks : low = ("has:task" : Text).toList ∨ low = ("has:tasks" : Text).toList
  · simp only [htasks, if_true, decide_true, Option.getD_some, Rule.token]
  simp only [htasks, if_false, decide_false]
  by_cases hoverdue : low = ("is:overdue" : Text).toList
  · simp only [hoverdue, if_true, decide_true, Option.getD_some, Rule.token]
  simp only [hoverdue, if_false, decide_false]
  cases ("priority:" : Text).toList.isPrefixOf low with
  | true =>
    simp only [if_true, Option.getD_some, Rule.token, priorityOf?, Rule.shape, Shape.length, hlow]
    cases Priority.ofName? (Text.ofList (low.drop (Text.length "priority:"))) <;> rfl
  | false =>
    simp only [Bool.false_eq_true, if_false]
    cases ("progress:>" : Text).toList.isPrefixOf low with
    | true =>
      simp only [if_true, Option.getD_some, Rule.token, ratioOf?, Rule.body, Rule.shape,
        Shape.length]
      cases Token.ratioOf? (word.toList.drop (Text.length "progress:>")) <;> rfl
    | false =>
      simp only [Bool.false_eq_true, if_false]
      cases ("due:" : Text).toList.isPrefixOf low with
      | true =>
        simp only [if_true, Option.getD_some, Rule.token, dateOf?, Rule.body, Rule.shape,
          Shape.length]
        cases Token.dateOf? (word.toList.drop (Text.length "due:")) <;> rfl
      | false =>
        by_cases hany : low = ("tag:any" : Text).toList
        · simp only [hany, if_true, if_false, decide_true, Bool.false_eq_true, Option.getD_some,
            Rule.token]
        · simp only [hany, if_false, decide_false, Bool.false_eq_true, Option.getD_some, Rule.token]

theorem token_ofWord (word : Text) : Token.ofWord word = (Rule.ofWord word).token word := by
  unfold Token.ofWord
  split
  · next r hr =>
    have hrule : Rule.ofWord word = .tag := by
      simp [Rule.ofWord, Rule.all, Rule.shape, Shape.fits, hr]
    simp [hrule, Rule.token, Rule.body, tagOf, hr, Rule.shape, Shape.length]
  · next r hr =>
    have hrule : Rule.ofWord word = .semantic := by
      simp [Rule.ofWord, Rule.all, Rule.shape, Shape.fits, hr]
    simp [hrule, Rule.token, Rule.body, termOf, hr, Rule.shape, Shape.length]
  · next htag hsemantic =>
    refine token_ofOperator (fun h => ?_) fun h => ?_
    · obtain ⟨r, hr⟩ := List.head?_eq_some_iff.mp h
      exact htag r hr
    · obtain ⟨r, hr⟩ := List.head?_eq_some_iff.mp h
      exact hsemantic r hr

theorem ofWord_of_none {word : Text} (h : classOf word = none) :
    Token.ofWord word = .invalid word := by
  rw [token_ofWord]
  unfold classOf at h
  split at h
  · cases h
  · next htakes => cases hr : Rule.ofWord word <;> simp_all [Rule.takes, Rule.token]

theorem ofWord_of_some {word : Text} {r : Rule} (h : classOf word = some r) :
    Token.ofWord word = r.token word ∧ r.takes word = true := by
  rw [token_ofWord]
  unfold classOf at h
  split at h
  · next htakes =>
    cases h
    exact ⟨rfl, htakes⟩
  · cases h

/-! ### Queries word by word -/

theorem wordsIn_concat (k : Option Rule) (ws : List Text) (w : Text) :
    wordsIn k (ws ++ [w]) = if classOf w = k then wordsIn k ws ++ [w] else wordsIn k ws := by
  unfold wordsIn
  rw [List.filter_append]
  by_cases h : classOf w = k <;> simp [h]

theorem eraseDups_concat (tags : List Text) (tag : Text) :
    (tags ++ [tag]).eraseDups = withTag tag tags.eraseDups := by
  rw [List.eraseDups_append]
  unfold withTag
  by_cases h : tag ∈ tags <;> simp [h, List.removeAll, List.eraseDups_cons]

theorem described_concat (ws : List Text) (w : Text) :
    described (ws ++ [w]) = (described ws).add (Token.ofWord w) := by
  cases hw : classOf w with
  | none =>
    rw [ofWord_of_none hw]
    simp [described, wordsIn_concat, hw, add, refine]
  | some r =>
    obtain ⟨htoken, htakes⟩ := ofWord_of_some hw
    rw [htoken]
    cases r with
    | tag =>
      simp_all [described, wordsIn_concat, add, refine, Rule.token, Rule.takes, eraseDups_concat]
    | semantic =>
      simp_all [described, wordsIn_concat, add, refine, Rule.token, Rule.takes]
    | priority =>
      obtain ⟨p, hp⟩ := Option.isSome_iff_exists.mp htakes
      simp [described, wordsIn_concat, hw, add, refine, Rule.token, hp]
    | progress =>
      obtain ⟨x, hx⟩ := Option.isSome_iff_exists.mp htakes
      simp [described, wordsIn_concat, hw, add, refine, Rule.token, hx]
    | due =>
      obtain ⟨a, ha⟩ := Option.isSome_iff_exists.mp htakes
      simp [described, wordsIn_concat, hw, add, refine, Rule.token, ha]
    | favorite | tasks | overdue | anyTag | free =>
      simp [described, wordsIn_concat, hw, add, refine, Rule.token]

theorem ofTokens_words (ws : List Text) : ofTokens (ws.map Token.ofWord) = described ws := by
  induction ws using List.reverseRecOn with
  | nil => rfl
  | append_singleton ws w ih =>
    rw [List.map_append, List.map_singleton, ofTokens_concat, ih, described_concat]

/-! ### No word is lost -/

/-- The classes of words. -/
def classes : List (Option Rule) := none :: Rule.all.map some

/-- A word is counted in its own class and in no other. -/
theorem count_wordsIn (k : Option Rule) (ws : List Text) (w : Text) :
    (wordsIn k ws).count w = if k = classOf w then ws.count w else 0 := by
  unfold wordsIn
  split
  · next hk => exact List.count_filter (by simpa using hk.symm)
  · next hk =>
    refine List.count_eq_zero.mpr fun hmem => hk ?_
    have hclass := (List.mem_filter.mp hmem).2
    simpa using (of_decide_eq_true hclass).symm

/-- Sorted by their classes, words are what they were. -/
theorem classes_perm (ws : List Text) : (classes.flatMap fun k => wordsIn k ws).Perm ws := by
  refine List.perm_iff_count.mpr fun w => ?_
  rw [List.count_flatMap]
  simp only [Function.comp_def, count_wordsIn]
  cases classOf w with
  | none => simp [classes, Rule.all]
  | some r => cases r <;> simp [classes, Rule.all]

/-! ### Operators as they are written -/

/-- A word in which an operator is seen begins with the operator in letters of any case, and what
it brings stands behind these letters, as it was written. -/
theorem exists_spelled {r : Rule} {text word : Text} (hr : r.shape = .operator text)
    (hfits : r.shape.fits word = true) :
    ∃ spelled, word.toList = spelled ++ r.body word ∧ Text.lowerChars spelled = text.toList := by
  rw [hr] at hfits
  obtain ⟨rest, hrest⟩ := List.isPrefixOf_iff_prefix.mp hfits
  have hplain : (∀ c ∈ text.toList, c.toNat < 0x80) ∧ text.toList.getLast? ≠ some (.char 'i') := by
    cases r <;> cases hr <;> exact ⟨by decide, by decide⟩
  obtain ⟨htake, -⟩ := Text.lowerFrom_eq_append hplain.1 hplain.2 hrest.symm
  refine ⟨word.toList.take text.toList.length, ?_, htake⟩
  unfold Rule.body
  rw [hr]
  show word.toList = _ ++ word.toList.drop text.length
  rw [Text.length_toList, List.take_append_drop]

/-! ### Queries -/

theorem fits_ofWord (word : Text) : (Rule.ofWord word).shape.fits word = true := by
  unfold Rule.ofWord
  cases h : Rule.all.find? (·.shape.fits word) with
  | none => rfl
  | some r =>
    have hfits := List.find?_some h
    exact hfits

/-- A query asks for what its words ask for: each word counts for one class, the tags are listed
once, of two values the later one counts, and an operator is taken off a word as it was written,
although it is looked for in small letters. -/
theorem parse_eq_described (raw : Text) :
    parse raw = described (Text.words raw) ∧
      (classes.flatMap fun k => wordsIn k (Text.words raw)).Perm (Text.words raw) ∧
      ∀ word ∈ Text.words raw, ∀ text, (Rule.ofWord word).shape = .operator text →
        ∃ spelled, word.toList = spelled ++ (Rule.ofWord word).body word ∧
          Text.lowerChars spelled = text.toList :=
  ⟨ofTokens_words _, classes_perm _, fun word _ _ h => exists_spelled h (fits_ofWord word)⟩

/-- One term, one tag that is written twice, one mark alone and one operator in capitals. -/
theorem parse_capitals_eq_described :
    let raw : Text := " Milk # #Tea PROGRESS:>40 #tea "
    let progress : Text := "PROGRESS:>40"
    let ws := [("Milk" : Text), "#", "#Tea", progress, "#tea"]
    progress ∈ Text.words raw ∧ (Rule.ofWord progress).shape = .operator "progress:>" ∧
      parse raw = described ws ∧ (described ws).discarded = [("#" : Text)] ∧
      (described ws).descriptor =
        { requiredTags := ["tea"], minProgress := some 0.4, textTerms := ["Milk"] } ∧
      ∃ spelled, progress.toList = spelled ++ Rule.progress.body progress ∧
        Text.lowerChars spelled = ("progress:>" : Text).toList := by
  intro raw progress ws
  have hwords : Text.words raw = ws := by decide +kernel
  have hmem : progress ∈ Text.words raw := by
    rw [hwords]
    decide
  have hshape : (Rule.ofWord progress).shape = .operator "progress:>" := by rfl
  obtain ⟨hparse, -, hspelled⟩ := parse_eq_described raw
  rw [hwords] at hparse
  exact ⟨hmem, hshape, hparse, by decide +kernel, by decide +kernel, hspelled _ hmem _ hshape⟩

end Notebook.Query
