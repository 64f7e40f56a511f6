import Notebook.Text.Letter

/-!
# Blanks, words and pieces

Blanks separate words and are trimmed from both ends of a text.  What is done to the parts of a
text is done to its list of letters; `words` is also given for texts.
-/

namespace Notebook.Text

/-- White space of any script, and the four separator controls `0x1C` to `0x1F`. -/
def isBlank (c : Letter) : Bool :=
  let n := c.toNat
  (0x9 ≤ n && n ≤ 0xD) || (0x1C ≤ n && n ≤ 0x20) || n == 0x85 || n == 0xA0 || n == 0x1680 ||
    (0x2000 ≤ n && n ≤ 0x200A) || n == 0x2028 || n == 0x2029 || n == 0x202F || n == 0x205F ||
    n == 0x3000

/-- White space without the separator controls. -/
def isSpace (c : Letter) : Bool := isBlank c && !(0x1C ≤ c.toNat && c.toNat ≤ 0x1F)

section Trim

variable {α : Type} (p : α → Bool)

def dropEndWhile (xs : List α) : List α := (xs.reverse.dropWhile p).reverse

def trimBy (xs : List α) : List α := dropEndWhile p (xs.dropWhile p)

@[simp] theorem dropEndWhile_nil : dropEndWhile p [] = [] := rfl

end Trim

def trim (cs : List Letter) : List Letter := trimBy isBlank cs

/-- Nothing but blanks. -/
def isBlankText (s : Text) : Bool := s.toList.all isBlank

/-! ### Words -/

/-- The longest pieces without a blank, in order. -/
def wordsOf (cs : List Letter) : List (List Letter) :=
  (cs.splitOnP isBlank).filter (! ·.isEmpty)

/-- The words of a text. -/
def words (s : Text) : List Text := (wordsOf s.toList).map ofList

@[simp] theorem wordsOf_nil : wordsOf [] = [] := rfl

/-! ### Pieces -/

/-- Cut at every `sep`; two neighbouring ones have an empty piece between them. -/
def pieces {α : Type} [BEq α] (sep : α) (xs : List α) : List (List α) := xs.splitOnP (· == sep)

/-! ### Parts of a text -/

/-- Does `part` stand somewhere in the text? -/
def occursIn (part : List Letter) : List Letter → Bool
  | [] => part.isEmpty
  | c :: cs => part.isPrefixOf (c :: cs) || occursIn part cs

@[simp] theorem occursIn_nil (part : List Letter) : occursIn part [] = part.isEmpty := rfl

end Notebook.Text
