import Notebook.Moment
import Notebook.Vector.Grid

/-!
# Notes

A note with its tags and tasks, and with what an analysis has found out about it.
-/

namespace Notebook

inductive Priority
  | low
  | normal
  | high
  | urgent
  deriving DecidableEq, Repr

namespace Priority

def name : Priority → Text
  | .low => "low"
  | .normal => "normal"
  | .high => "high"
  | .urgent => "urgent"

def ofName? (s : Text) : Option Priority :=
  [low, normal, high, urgent].find? (·.name = s)

theorem ofName?_name (p : Priority) : ofName? p.name = some p := by cases p <;> decide

theorem name_of_ofName? {s : Text} {p : Priority} (h : ofName? s = some p) : p.name = s := by
  simpa using List.find?_some h

end Priority

structure Task where
  text : Text
  completed : Bool
  deriving DecidableEq, Repr

structure Note where
  id : Text
  title : Text
  body : Text
  tags : List Text
  favorite : Bool
  archived : Bool
  system : Bool
  priority : Priority
  progress : Float
  dueDate : Option Moment
  tasks : List Task
  embedding : Option Grid
  suggestedTags : List Text
  tagConfidences : List Float
  lastAnalyzed : Option Moment
  created : Moment
  modified : Moment
  deriving DecidableEq

namespace Note

/-- Changed at the moment `now`. -/
def touch (now : Moment) (n : Note) : Note := { n with modified := now.zoned }

/-- Archived notes and notes of the system are never found. -/
def isSearchable (n : Note) : Bool := !n.archived && !n.system

@[simp] theorem id_touch (now : Moment) (n : Note) : (n.touch now).id = n.id := rfl

end Note

end Notebook
