import Notebook.Json.Basic
import Notebook.Decimal.Numeral
import Notebook.Text.Quoted

/-!
# Grids of numbers

An embedding is a row of numbers in single precision.  A record may hold rows of rows instead, so
a grid has a shape, the sizes of its dimensions from the outside in, and the entries in reading
order.  A single number is a grid without dimensions.  No more than 64 dimensions are read.
-/

namespace Notebook

/-- The number of entries of a shape. -/
def entryCount (shape : List Nat) : Nat := shape.foldr (· * ·) 1

structure Grid where
  shape : List Nat
  entries : List Float
  full : entries.length = entryCount shape
  deriving DecidableEq

namespace Grid

/-- A row. -/
def ofList (xs : List Float) : Grid := ⟨[xs.length], xs, by simp [entryCount]⟩

/-- The same shape with every entry changed. -/
def map (f : Float → Float) (g : Grid) : Grid := ⟨g.shape, g.entries.map f, by simp [g.full]⟩

@[simp] theorem shape_ofList (xs : List Float) : (ofList xs).shape = [xs.length] := rfl

@[simp] theorem entries_ofList (xs : List Float) : (ofList xs).entries = xs := rfl

@[simp] theorem shape_map (f : Float → Float) (g : Grid) : (g.map f).shape = g.shape := rfl

/-! ### Reading -/

/-- Why a value is no grid. -/
inductive Error
  /-- Rows of different lengths, or too many of them in one another; `shape` is as far as they
  agree. -/
  | ragged (shape : List Nat)
  | unreadable (text : Text)
  | notNumber
  | tooLarge
  deriving DecidableEq

/-- The most dimensions that are read. -/
def maxDimensions : Nat := 64

/-- `(2, 3)`; a single size is followed by a comma. -/
def shapeText (shape : List Nat) : String :=
  match shape with
  | [n] => "(" ++ toString n ++ ",)"
  | _ => "(" ++ ", ".intercalate (shape.map toString) ++ ")"

namespace Error

def unreadableNumber (text : Text) : String :=
  "could not convert string to float: " ++ Text.quoted text

def message : Error → String
  | .ragged shape =>
    "setting an array element with a sequence. The requested array " ++
      if shape.length = maxDimensions then
        "would exceed the maximum number of dimension of " ++ toString maxDimensions ++ "."
      else
        "has an inhomogeneous shape after " ++ toString shape.length ++
          " dimensions. The detected shape was " ++ shapeText shape ++ " + inhomogeneous part."
  | .unreadable text => unreadableNumber text
  | .notNumber => "a number is needed"
  | .tooLarge => "int too large to convert to float"

end Error

/-- The dimensions on which all parts of a value agree, and whether they are all of them. -/
structure Nesting where
  shape : List Nat
  exact : Bool
  deriving DecidableEq

def commonPart : List Nat → List Nat → List Nat
  | a :: as, b :: bs => if a = b then a :: commonPart as bs else []
  | _, _ => []

def Nesting.meet (a b : Nesting) : Nesting :=
  ⟨commonPart a.shape b.shape, a.exact && b.exact && a.shape == b.shape⟩

mutual

/-- The nesting of a value of which no more than `room` dimensions are looked at. -/
def nestingWithin (room : Nat) : Json → Nesting
  | .arr vs =>
    match room, vs with
    | 0, _ => ⟨[], false⟩
    | _ + 1, [] => ⟨[0], true⟩
    | room + 1, v :: vs =>
      let inner := nestingOfAll room (nestingWithin room v) vs
      ⟨(vs.length + 1) :: inner.shape, inner.exact⟩
  | _ => ⟨[], true⟩

def nestingOfAll (room : Nat) (n : Nesting) : List Json → Nesting
  | [] => n
  | v :: vs => nestingOfAll room (n.meet (nestingWithin room v)) vs

end

def nesting (v : Json) : Nesting := nestingWithin maxDimensions v

/-- A single entry.  Texts are read as numbers, and `null` is no number. -/
def entry : Json → Except Error Float
  | .null => .ok Decimal.nan
  | .bool b => .ok (if b then 1.0 else 0.0)
  | .int i =>
    let x := Decimal.ofInt i
    if Decimal.isFinite x then .ok x else .error .tooLarge
  | .float x => .ok x
  | .str s =>
    match Decimal.readLetters? s.toList with
    | some x => .ok x
    | none => .error (.unreadable s)
  | _ => .error .notNumber

section

variable (round : Float → Float)

mutual

def entriesOf : Json → Except Error (List Float)
  | .arr vs => entriesOfAll vs
  | v => (entry v).map fun x => [round x]

def entriesOfAll : List Json → Except Error (List Float)
  | [] => .ok []
  | v :: vs => do return (← entriesOf v) ++ (← entriesOfAll vs)

end

/-- A grid of rounded numbers.  Its shape is settled before any entry is read. -/
def ofRounded (v : Json) : Except Error Grid :=
  let n := nesting v
  if n.exact then do
    let xs ← entriesOf round v
    if h : xs.length = entryCount n.shape then .ok ⟨n.shape, xs, h⟩ else .error (.ragged n.shape)
  else .error (.ragged n.shape)

end

/-- A grid in single precision. -/
def ofJson (v : Json) : Except Error Grid := ofRounded Decimal.toSingle v

/-! ### Writing -/

/-- The entries in brackets, row by row. -/
def nested (f : Float → Json) : List Nat → List Float → Json
  | [], xs => f (xs.headD 0.0)
  | n :: shape, xs =>
    let size := entryCount shape
    .arr ((List.range n).map fun i => nested f shape ((xs.drop (i * size)).take size))

def toJson (f : Float → Json) (g : Grid) : Json := nested f g.shape g.entries

/-! ### Sums -/

/-- The shape of a sum.  Shapes are laid side by side at their ends; a size of one gives way. -/
def commonShape? (a b : List Nat) : Option (List Nat) :=
  let n := max a.length b.length
  let pad := fun (s : List Nat) => List.replicate (n - s.length) 1 ++ s
  ((pad a).zip (pad b)).mapM fun (x, y) =>
    if x = y then some x else if x = 1 then some y else if y = 1 then some x else none

/-- The entries of a grid of shape `own` repeated to fill the shape `target` of as many
dimensions. -/
def spread : (own target : List Nat) → List Float → List Float
  | o :: own, t :: target, xs =>
    let size := entryCount own
    let rows := (List.range o).map fun i => spread own target ((xs.drop (i * size)).take size)
    if o = t then rows.flatten else (List.replicate t rows.flatten).flatten
  | _, _, xs => xs

/-- The entries of a grid in a shape that it gives way to. -/
def entriesIn (target : List Nat) (g : Grid) : List Float :=
  spread (List.replicate (target.length - g.shape.length) 1 ++ g.shape) target g.entries

/-- Two grids whose shapes do not go together. -/
structure Mismatch where
  left : List Nat
  right : List Nat
  deriving DecidableEq

def Mismatch.message (m : Mismatch) : String :=
  "operands could not be broadcast together with shapes " ++ shapeText m.left ++ " " ++
    shapeText m.right ++ " "

def add (a b : Grid) : Except Mismatch Grid :=
  if h : a.shape = b.shape then
    .ok ⟨a.shape, List.zipWith (· + ·) a.entries b.entries, by simp [a.full, b.full, h]⟩
  else
    match commonShape? a.shape b.shape with
    | none => .error ⟨a.shape, b.shape⟩
    | some s =>
      let xs := List.zipWith (· + ·) (a.entriesIn s) (b.entriesIn s)
      if h : xs.length = entryCount s then .ok ⟨s, xs, h⟩ else .error ⟨a.shape, b.shape⟩

end Grid

end Notebook
