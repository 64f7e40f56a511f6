import Notebook.Keyed
import Notebook.Vector.Grid

/-!
# Similarity

The similarity of two embeddings is the cosine of the angle between them, from -1 to 1.  It is
zero where one of them has no length or where their shapes differ.
-/

namespace Notebook

/-- Grids of one shape that have no single inner product. -/
inductive Incomparable
  /-- The last size is not the last but one. -/
  | misaligned (shape : List Nat)
  /-- The product is a grid again. -/
  | notSingle
  deriving DecidableEq

namespace Incomparable

def message : Incomparable → String
  | .misaligned shape =>
    let n := shape.length
    let size := fun (i : Nat) => toString (shape.getD i 0) ++ " (dim " ++ toString i ++ ")"
    "shapes " ++ tight shape ++ " and " ++ tight shape ++ " not aligned: " ++ size (n - 1) ++
      " != " ++ size (n - 2)
  | .notSingle => "only one number can be a similarity"
where
  tight (shape : List Nat) : String := "(" ++ ",".intercalate (shape.map toString) ++ ")"

end Incomparable

namespace Similarity

def dot (xs ys : List Float) : Float := (List.zipWith (· * ·) xs ys).foldl (· + ·) 0.0

def norm (xs : List Float) : Float := (dot xs xs).sqrt

/-- From -1 to 1; what is no number counts as 1. -/
def clamp (x : Float) : Float :=
  let x := if x < 1.0 then x else 1.0
  if -1.0 < x then x else -1.0

/-- The inner product of two grids of one shape.  Only rows and single numbers have one. -/
def product (a b : Grid) : Except Incomparable Float :=
  match a.shape.reverse with
  | k :: j :: _ => .error (if j ≠ k then .misaligned a.shape else .notSingle)
  | _ => .ok (dot a.entries b.entries)

/-- The similarity of two grids. -/
def score (a b : Grid) : Except Incomparable Float :=
  if a.shape ≠ b.shape then .ok 0.0
  else
    let m := norm a.entries
    let n := norm b.entries
    if m == 0.0 || n == 0.0 then .ok 0.0
    else (product a b).map fun p => clamp (p / (m * n))

/-! ### Ranking -/

variable {α : Type}

/-- Is a score enough? -/
def reaches (threshold : Float) (inclusive : Bool) (score : Float) : Bool :=
  threshold < score || (inclusive && score == threshold)

/-- The items that have an embedding, each with its score. -/
def scores (query : Grid) (embedding : α → Option Grid) :
    List α → Except Incomparable (List (α × Float))
  | [] => .ok []
  | a :: r =>
    match embedding a with
    | none => scores query embedding r
    | some g => do
      let x ← score query g
      let rest ← scores query embedding r
      return (a, x) :: rest

/-- The items whose score is enough, best first; of equal ones the earlier comes first. -/
def rank (query : Grid) (embedding : α → Option Grid) (threshold : Float) (inclusive : Bool)
    (items : List α) : Except Incomparable (List (α × Float)) :=
  (scores query embedding items).map fun xs =>
    rankBy (fun a b : Float => b < a) Prod.snd (xs.filter fun p => reaches threshold inclusive p.2)

/-- A score as a whole number of thousand millionths. -/
def billionths (x : Float) : Int := Decimal.floor (x * 1000000000.0 + 0.5)

end Similarity

end Notebook
