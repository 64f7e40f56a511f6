import Notebook.Keyed

/-!
# JSON values

Whole numbers are kept apart from numbers with a point or an exponent, and the fields of an object
keep their order.
-/

namespace Notebook

inductive Json
  | null
  | bool (b : Bool)
  | int (i : Int)
  | float (x : Float)
  | str (s : Text)
  | arr (items : List Json)
  | obj (fields : List (Text × Json))

namespace Json

instance : Inhabited Json := ⟨.null⟩

/-- The value of a field. -/
def field? (key : Text) : Json → Option Json
  | .obj fields => Keyed.get? key fields
  | _ => none

def strings (ss : List Text) : Json := .arr (ss.map .str)

def floats (xs : List Float) : Json := .arr (xs.map .float)

/-- A value, or `null` where there is none. -/
def ofOption {α : Type} (f : α → Json) : Option α → Json
  | none => .null
  | some a => f a

end Json

end Notebook
