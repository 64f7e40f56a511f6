import Notebook.Keyed

/-!
# Entities of a text

Candidates for tags are names, which are runs of capitalized words, and content words.  A single
capitalized word that begins a sentence counts as a word.  They are tallied over the text, and the
most frequent ones come first.
-/

namespace Notebook

/-- Words that say nothing about a text. -/
def stopwords : List Text :=
  (["the", "and", "for", "are", "but", "not", "you", "all", "can", "had", "her", "was", "one",
   "our", "out", "has", "have", "been", "some", "them", "then", "this", "that", "with", "from",
   "will", "would", "there", "their", "what", "about", "which", "when", "make", "like", "time",
   "just", "know", "take", "come", "could", "good", "most", "also", "into", "year", "your",
   "over", "such", "than", "first", "made", "find", "here", "thing", "things", "note", "notes",
   "text", "content"] : List String).map Text.ofString

def isStopword (word : Text) : Bool := stopwords.contains word

namespace Entities

/-- A piece of a text: a word, or a mark that ends a run of capitalized words. -/
inductive Piece
  | word (cs : List Letter)
  | mark (c : Letter)
  deriving DecidableEq, Repr

def isLetter (c : Letter) : Bool := c.isAlpha

/-- May the character stand inside a word? -/
def isInner (c : Letter) : Bool := isLetter c || c == '\'' || c == '-'

def isMark (c : Letter) : Bool :=
  c == '.' || c == '!' || c == '?' || c == ',' || c == ';' || c == ':' || c == '(' || c == ')' ||
    c == '\n'

def endsSentence (c : Letter) : Bool := c == '.' || c == '!' || c == '?' || c == '\n'

/-- A word that has come to its end, in front of other pieces. -/
def closeWord (word : List Letter) (ps : List Piece) : List Piece :=
  if word.isEmpty then ps else .word word :: ps

/-- The pieces of a text of which `word` is the word that was begun.  Letters, apostrophes and
hyphens go on with a word; only a letter begins one. -/
def piecesFrom (word : List Letter) : List Letter → List Piece
  | [] => closeWord word []
  | c :: r =>
    if isLetter c || (!word.isEmpty && isInner c) then piecesFrom (word ++ [c]) r
    else closeWord word (if isMark c then .mark c :: piecesFrom [] r else piecesFrom [] r)

def pieces (cs : List Letter) : List Piece := piecesFrom [] cs

/-! ### Names of candidates -/

/-- A capital letter first and small ones behind. -/
def capitalize : List Letter → List Letter
  | [] => []
  | c :: r => c.toUpper :: r.map Letter.toLower

/-- Every word of a name capitalized. -/
def titleCase (name : List (List Letter)) : Text :=
  Text.intercalate " " (name.map fun w => Text.ofList (capitalize w))

def small (cs : List Letter) : Text := Text.ofList (cs.map Letter.toLower)

/-- How often each candidate has been seen, in the order of first sight. -/
abbrev Tally := Keyed Nat

def Tally.add (key : Text) (t : Tally) : Tally := Keyed.insert key ((t.get? key).getD 0 + 1) t

/-- The words of a name with a space between any two of them. -/
def spaced : List (List Letter) → List Letter
  | [] => []
  | [w] => w
  | w :: v :: r => w ++ .char ' ' :: spaced (v :: r)

def countName (name : List (List Letter)) (t : Tally) : Tally :=
  if (spaced name).length < 3 || isStopword (small (spaced name)) then t
  else t.add (titleCase name)

def countWord (word : List Letter) (t : Tally) : Tally :=
  if word.length < 4 || isStopword (small word) then t else t.add (titleCase [word])

/-! ### Reading pieces -/

/-- What is known after some pieces: the open run of capitalized words, whether it began a
sentence, whether a sentence is about to begin, and the tally. -/
structure State where
  run : List (List Letter)
  runBegins : Bool
  begins : Bool
  tally : Tally
  deriving DecidableEq

def start : State := ⟨[], true, true, []⟩

def closeRun (s : State) : State :=
  { s with
    run := []
    tally := match s.run with
      | [] => s.tally
      | [w] => if s.runBegins then countWord w s.tally else countName [w] s.tally
      | ws => countName ws s.tally }

def isCapitalized (word : List Letter) : Bool := word.head?.any Letter.isUpper

def step (s : State) : Piece → State
  | .mark c =>
    let s := closeRun s
    { s with begins := s.begins || endsSentence c }
  | .word w =>
    if isCapitalized w then
      { s with
        run := s.run ++ [w]
        runBegins := if s.run.isEmpty then s.begins else s.runBegins
        begins := false }
    else
      let s := closeRun s
      { s with tally := countWord w s.tally, begins := false }

/-- The candidates of a text with the number of times they were seen. -/
def tally (cs : List Letter) : Tally := (closeRun ((pieces cs).foldl step start)).tally

end Entities

/-- The candidates of a text, most frequent first, at most `limit` of them. -/
def entities (limit : Int) (text : Text) : List Text :=
  (headUpTo limit (rankBy (fun a b : Nat => b < a) Prod.snd (Entities.tally text.toList))).map
    Prod.fst

end Notebook
