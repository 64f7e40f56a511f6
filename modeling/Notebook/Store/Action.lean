import Notebook.Note.Record

/-!
# Actions and jobs

What can be asked of the writer of a store: to file a note, to delete one, or to change one by a
list of actions.
-/

namespace Notebook

/-- One step of a change to a note. -/
inductive Action
  /-- A new value for a field. -/
  | set (field : Text) (value : Json)
  | appendTag (tag : Text)
  /-- Give up. -/
  | fail
  /-- File another note, given by a record. -/
  | add (record : Json)
  | delete (id : Text)
  /-- Submit a change of a note. -/
  | submit (id : Text) (actions : List Action)
  /-- Write the suggested tags down that the note does not carry, each with its confidence. -/
  | suggest (tags : List Text) (confidences : List Json) (time : Moment)
  | embed (embedding : Option Grid)

inductive Job
  | add (n : Note)
  | delete (id : Text)
  | change (id : Text) (actions : List Action)

mutual

def Action.size : Action → Nat
  | .submit _ as => 1 + Action.sizes as
  | _ => 1

def Action.sizes : List Action → Nat
  | [] => 0
  | a :: as => a.size + Action.sizes as

end

def Job.size : Job → Nat
  | .change _ as => 1 + Action.sizes as
  | _ => 1

theorem Action.size_submit (id : Text) (as : List Action) :
    (Action.submit id as).size = (Job.change id as).size := by simp [Action.size, Job.size]

end Notebook
