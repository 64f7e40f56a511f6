import Notebook.Decimal.Numeral
import Notebook.Text.Blank
import Notebook.Text.Lowercase
import Notebook.Text.WordChar

/-!
# Statistics of a text

Counts of words, sentences, paragraphs and characters, and how easy a text is to read.
-/

namespace Notebook

-- A sum begins with the zero of the core library here, whatever is imported besides.
attribute [local instance (high)] Zero.ofOfNat0

namespace Statistics

/-! ### Words -/

/-- Where a reader stands: outside of words, in a word, or behind an apostrophe that followed a
word and may go on with it. -/
inductive Position
  | outside
  | inside
  | joined
  deriving DecidableEq, Repr

def isApostrophe (c : Letter) : Bool := c == '\'' || c == '’'

def Position.after (p : Position) (c : Letter) : Position :=
  if Text.isWordChar c then .inside
  else if p = .inside ∧ isApostrophe c then .joined
  else .outside

/-- The number of words that begin in a text read from a position on. -/
def wordsFrom (p : Position) : List Letter → Nat
  | [] => 0
  | c :: r => (if Text.isWordChar c && p == .outside then 1 else 0) + wordsFrom (p.after c) r

def wordCount (cs : List Letter) : Nat := wordsFrom .outside cs

/-! ### Sentences and paragraphs -/

def isEnder (c : Letter) : Bool := c == '.' || c == '!' || c == '?'

/-- One for every ender.  A text that has words and no ender is one sentence. -/
def sentenceCount (cs : List Letter) : Nat :=
  let n := cs.countP isEnder
  if n = 0 ∧ 0 < wordCount cs then 1 else n

/-- Cut at every two line breaks that follow each other. -/
def paragraphsOf : List Letter → List (List Letter)
  | [] => [[]]
  | [c] => [[c]]
  | c :: d :: r =>
    if c = '\n' ∧ d = '\n' then [] :: paragraphsOf r
    else (paragraphsOf (d :: r)).modifyHead (c :: ·)

/-- Paragraphs with something in them. -/
def fullParagraphs (cs : List Letter) : Nat :=
  (paragraphsOf cs).countP fun p => !p.all Text.isBlank

end Statistics

structure Statistics where
  words : Nat
  sentences : Nat
  paragraphs : Nat
  characters : Nat
  readingMinutes : Float
  wordsPerSentence : Float
  deriving DecidableEq

namespace Statistics

def wordsPerMinute : Float := 200.0

def quotient (n d : Nat) : Float := Decimal.ofNat n / Decimal.ofNat d

/-- No text has fewer than one sentence and one paragraph. -/
def ofText (cs : List Letter) : Statistics :=
  let n := sentenceCount cs
  { words := wordCount cs
    sentences := max 1 n
    paragraphs := max 1 (fullParagraphs cs)
    characters := cs.countP fun c => !Text.isBlank c
    readingMinutes := Decimal.ofNat (wordCount cs) / wordsPerMinute
    wordsPerSentence := if 0 < n then quotient (wordCount cs) n else Decimal.ofNat (wordCount cs) }

end Statistics

/-! ### Readability -/

namespace Readability

def isVowel (c : Letter) : Bool :=
  c == 'a' || c == 'e' || c == 'i' || c == 'o' || c == 'u' || c == 'y'

/-- The number of runs of vowels, if `open` tells whether one is going on. -/
def vowelRuns (running : Bool) : List Letter → Nat
  | [] => 0
  | c :: r => (if isVowel c && !running then 1 else 0) + vowelRuns (isVowel c) r

/-- Runs of vowels, less a silent e; no word has fewer than one. -/
def syllablesOfWord (word : List Letter) : Nat :=
  let n := vowelRuns false word
  max 1 (if word.getLast? = some (.char 'e') ∧ 1 < n then n - 1 else n)

def syllables (cs : List Letter) : Nat :=
  max 1 ((Text.wordsOf (Text.lowerChars cs)).map syllablesOfWord).sum

/-- Least scores of the levels, from the top. -/
def levels : List (Float × Text) :=
  [(90.0, "Very Easy"), (80.0, "Easy"), (70.0, "Fairly Easy"), (60.0, "Standard"),
   (50.0, "Fairly Difficult"), (30.0, "Difficult")]

def level (score : Float) : Text :=
  ((levels.find? fun l => l.1 ≤ score).map Prod.snd).getD "Very Difficult"

/-- From 0 to 100. -/
def clamp (x : Float) : Float :=
  let x := if x < 100.0 then x else 100.0
  if 0.0 < x then x else 0.0

end Readability

/-- Flesch reading ease with the name of its level. -/
def readability (cs : List Letter) : Float × Text :=
  let s := Statistics.ofText cs
  if s.words = 0 then (0.0, "Not enough text")
  else
    let score := Readability.clamp (206.835 - 1.015 * Statistics.quotient s.words s.sentences
      - 84.6 * Statistics.quotient (Readability.syllables cs) s.words)
    (score, Readability.level score)

end Notebook
