import Notebook.Keyed
import Notebook.Analysis.Entities
import Notebook.Analysis.Statistics

/-!
# Key sentences

The sentences that say most about a text.  A sentence has a point for every content word, three
more for a word that announces a summary, and two more if it is the first or the last one.
-/

namespace Notebook

namespace KeySentences

/-- What a reader is passing over: nothing, the blanks behind a sentence, or line breaks. -/
inductive Gap
  | none
  | blanks
  | breaks
  deriving DecidableEq, Repr

/-- Cut behind every ender that blanks follow, and at line breaks.  `ended` tells whether the last
character was an ender. -/
def cut (gap : Gap) (ended : Bool) : List Letter → List (List Letter)
  | [] => [[]]
  | c :: r =>
    if (gap = .blanks ∧ Text.isBlank c) ∨ (gap = .breaks ∧ c = '\n') then cut gap false r
    else if ended && Text.isBlank c then [] :: cut .blanks false r
    else if c = '\n' then [] :: cut .breaks false r
    else (cut .none (Statistics.isEnder c) r).modifyHead (c :: ·)

/-- Sentences of more than ten characters. -/
def candidates (cs : List Letter) : List (List Letter) :=
  ((cut .none false cs).map Text.trim).filter fun s => 10 < s.length

def markers : List Text := ["important", "key", "main", "summary", "conclusion"]

def isContentWord (word : List Letter) : Bool :=
  3 < word.length && !isStopword (Text.ofList word)

def score (all : List (List Letter)) (s : List Letter) : Nat :=
  (Text.wordsOf (Text.lowerChars s)).countP isContentWord
    + (if markers.any fun m => Text.occursIn m.toList s then 3 else 0)
    + (if all.head? = some s ∨ all.getLast? = some s then 2 else 0)

end KeySentences

/-- The best sentences, best first, at most `count` of them. -/
def keySentences (count : Int) (cs : List Letter) : List (List Letter) :=
  let all := KeySentences.candidates cs
  headUpTo count (rankBy (fun a b : Nat => b < a) (KeySentences.score all) all)

end Notebook
