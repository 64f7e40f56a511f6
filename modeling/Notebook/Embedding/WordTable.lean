import Notebook.Disk
import Notebook.Keyed
import Notebook.Text.WordChar
import Notebook.Text.Lowercase
import Notebook.Text.Utf8
import Notebook.Vector.Grid

/-!
# Word tables

A word table gives words their vectors.  It is read from a text with a word and its components on
every line, separated by spaces; a first line with two whole numbers is a header.  The first row
settles how many components there are, and rows with another number of them are left out.  A later
row takes the place of an earlier one for the same word.
-/

namespace Notebook

structure WordTable where
  vectors : Keyed Grid
  dimension : Nat
  deriving DecidableEq

namespace WordTable

def empty : WordTable := ⟨[], 0⟩

def vector? (word : Text) (t : WordTable) : Option Grid := t.vectors.get? word

def contains (word : Text) (t : WordTable) : Bool := (t.vector? word).isSome

def size (t : WordTable) : Nat := t.vectors.length

/-! ### Reading -/

inductive LoadError
  /-- A component that is no number. -/
  | unreadable (component : Text)
  /-- The file holds no text. -/
  | undecodable
  deriving DecidableEq

def LoadError.message : LoadError → String
  | .unreadable component => Grid.Error.unreadableNumber component
  | .undecodable => "no text"

/-- The parts of a line, without the blanks at its end. -/
def parts (line : List Char) : List (List Char) :=
  Text.pieces ' ' (Text.dropEndWhile (fun c : Char => Text.isBlank c) line)

/-- Two whole numbers. -/
def isHeader (line : List Char) : Bool :=
  let ps := parts line
  ps.length == 2 && ps.all fun p => !p.isEmpty && p.all Text.isDigit

/-- The components of a row in single precision. -/
def components : List (List Char) → Except LoadError (List Float)
  | [] => .ok []
  | p :: ps =>
    match Decimal.readTyped? p with
    | some x => (components ps).map (Decimal.toSingle x :: ·)
    | none => .error (.unreadable (Text.ofChars p))

/-- The table with one more row. -/
def addLine (t : WordTable) (line : List Char) : Except LoadError WordTable :=
  match parts line with
  | word :: p :: ps =>
    let d := if t.dimension = 0 then ps.length + 1 else t.dimension
    if ps.length + 1 = d then
      (components (p :: ps)).map fun xs =>
        ⟨t.vectors.insert (Text.lower (Text.ofChars word)) (Grid.ofList xs), d⟩
    else .ok { t with dimension := d }
  | _ => .ok t

def addLines (t : WordTable) : List (List Char) → Except LoadError WordTable
  | [] => .ok t
  | l :: ls => (t.addLine l).bind (addLines · ls)

/-- The table in the lines of a text. -/
def ofLines : List (List Char) → Except LoadError WordTable
  | [] => .ok empty
  | l :: ls => empty.addLines (if isHeader l then ls else l :: ls)

/-- The table in a file.  Where the file breaks off, the lines before are read first. -/
def ofFile (file : Text.Decoded) : Except LoadError WordTable :=
  match file.ending with
  | .complete => ofLines (Text.allLines file.text)
  | _ => (ofLines (Text.settledLines file.text)).bind fun _ => .error .undecodable

/-! ### Tables from records -/

/-- Why a record is no word table. -/
inductive RecordError
  | grid (e : Grid.Error)
  /-- The first vector is a single number and has no components. -/
  | noComponents
  deriving DecidableEq

def gridsOf : List (Text × Json) → Except Grid.Error (List (Text × Grid))
  | [] => .ok []
  | (word, v) :: r => do
    let g ← Grid.ofJson v
    let gs ← gridsOf r
    return (Text.lower word, g) :: gs

def ofFields (fields : Keyed Json) : Except RecordError WordTable :=
  match gridsOf fields with
  | .error e => .error (.grid e)
  | .ok gs =>
    let vectors := Keyed.ofPairs gs
    match vectors with
    | [] => .ok empty
    | (_, g) :: _ =>
      match g.shape with
      | [] => .error .noComponents
      | d :: _ => .ok ⟨vectors, d⟩

/-- Why a word table cannot be loaded. -/
inductive TableError
  | file (e : FileError)
  | content (e : LoadError)
  deriving DecidableEq

/-- The word table in a file of the disk. -/
def load (path : Text) (disk : Disk) : Except TableError WordTable :=
  match disk.read path with
  | .error e => .error (.file e)
  | .ok file => (ofFile file).mapError .content

/-! ### Embedding texts -/

/-- The words of a text that have a vector: of three characters or more, in small letters. -/
def knownVectors (t : WordTable) (text : Text) : List Grid :=
  (Text.words (Text.lower text)).filterMap fun w => if w.length < 3 then none else t.vector? w

def sum (total : Grid) : List Grid → Except Grid.Mismatch Grid
  | [] => .ok total
  | g :: gs => (total.add g).bind (sum · gs)

/-- The mean of the vectors of the words of a text, in single precision; none if no word has
one. -/
def embed (t : WordTable) (text : Text) : Except Grid.Mismatch (Option Grid) :=
  match t.knownVectors text with
  | [] => .ok none
  | g :: gs =>
    (sum g gs).map fun total =>
      some (total.map fun x => Decimal.toSingle (x / Decimal.ofNat (gs.length + 1)))

end WordTable

end Notebook
