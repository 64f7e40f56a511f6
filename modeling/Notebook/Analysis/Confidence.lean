import Notebook.Json.Basic
import Notebook.Decimal.Numeral

/-!
# Confidences

A source of confidences gives one for each suggested tag.  It draws them evenly between two
bounds, or it is any function of the list of tags, which may fail.
-/

namespace Notebook

inductive Confidences
  /-- Drawn between `low` and `high` with the given fractions, over and over; `used` of them have
  been taken. -/
  | drawn (low high : Float) (fractions : List Float) (used : Nat)
  | given (f : List Text → Option (List Json))

namespace Confidences

def between (low high : Float) (fractions : List Float) : Confidences :=
  .drawn low high fractions 0

/-- The bounds when none are given. -/
def lowest : Float := 0.7

def highest : Float := 0.95

/-- The fraction after `used` of them. -/
def fraction (fractions : List Float) (used : Nat) : Float :=
  (fractions[used % fractions.length]?).getD 0.5

/-- The confidences of `n` tags. -/
def draw (low high : Float) (fractions : List Float) (used n : Nat) : List Float :=
  (List.range n).map fun i => low + (high - low) * fraction fractions (used + i)

/-- The confidences of a list of tags, and the source as it is afterwards. -/
def take (tags : List Text) : Confidences → Option (List Json) × Confidences
  | .drawn low high fractions used =>
    (some ((draw low high fractions used tags.length).map .float),
      .drawn low high fractions (used + tags.length))
  | .given f => (f tags, .given f)

end Confidences

end Notebook
