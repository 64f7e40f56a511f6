import Notebook.Keyed

/-!
# Checked values

A value that comes from outside is checked field by field.  All faults are collected, each with
its place in the value, in the order in which the fields are checked.  A breakdown is not a fault
of one field: it ends the check and leaves nothing but its cause.
-/

namespace Notebook

/-- What is wrong with a value at its place. -/
inductive FaultKind
  | missing
  | notText
  | unpairedText
  | notList
  | notFlag
  | flagUnreadable
  | notNumber
  | numberUnreadable
  | notWhole
  | wholeUnreadable
  | wholeOutOfRange
  | fractional
  | notFinite
  | tooSmall
  | tooLarge
  | notChoice
  | notRecord
  | notMoment
  | stampUnreadable
  | momentUnreadable
  | notGrid
  | unknownField
  | noSuchField
  deriving DecidableEq, Repr

structure Fault where
  place : List Text
  kind : FaultKind
  deriving DecidableEq, Repr

/-- What ends a check. -/
inductive Breakdown
  | notNumber
  | numberTooLarge
  /-- A field of a record that is not there to be set. -/
  | readOnly
  deriving DecidableEq, Repr

def Breakdown.message : Breakdown → String
  | .notNumber => "a number is needed"
  | .numberTooLarge => "int too large to convert to float"
  | .readOnly => "the field cannot be set"

inductive Checked (α : Type)
  | ok (a : α)
  | faulty (faults : List Fault)
  | broken (cause : Breakdown)
  deriving DecidableEq

namespace Checked

variable {α β : Type}

def fault (k : FaultKind) : Checked α := .faulty [⟨[], k⟩]

def map (f : α → β) : Checked α → Checked β
  | .ok a => .ok (f a)
  | .faulty fs => .faulty fs
  | .broken c => .broken c

/-- Both checks are made, the left one first. -/
def seq (f : Checked (α → β)) (a : Unit → Checked α) : Checked β :=
  match f with
  | .broken c => .broken c
  | .ok f => (a ()).map f
  | .faulty fs =>
    match a () with
    | .broken c => .broken c
    | .ok _ => .faulty fs
    | .faulty gs => .faulty (fs ++ gs)

instance : Applicative Checked where
  pure := .ok
  map := map
  seq := seq

/-- A further check of a value that has passed. -/
def andThen (a : Checked α) (f : α → Checked β) : Checked β :=
  match a with
  | .ok a => f a
  | .faulty fs => .faulty fs
  | .broken c => .broken c

/-- The same outcome for a value that is the part `name` of another one. -/
def under (name : Text) : Checked α → Checked α
  | .faulty fs => .faulty (fs.map fun f => { f with place := name :: f.place })
  | r => r

def toOption : Checked α → Option α
  | .ok a => some a
  | _ => none

@[simp] theorem map_ok (f : α → β) (a : α) : map f (.ok a) = .ok (f a) := rfl

@[simp] theorem under_ok (name : Text) (a : α) : under name (.ok a) = .ok a := rfl

theorem under_eq_ok_iff {name : Text} {r : Checked α} {a : α} :
    under name r = .ok a ↔ r = .ok a := by cases r <;> simp [under]

theorem map_eq_ok_iff {f : α → β} {r : Checked α} {b : β} :
    map f r = .ok b ↔ ∃ a, r = .ok a ∧ f a = b := by cases r <;> simp [map]

theorem andThen_eq_ok_iff {r : Checked α} {f : α → Checked β} {b : β} :
    r.andThen f = .ok b ↔ ∃ a, r = .ok a ∧ f a = .ok b := by cases r <;> simp [andThen]

theorem seq_eq_ok_iff {f : Checked (α → β)} {r : Checked α} {b : β} :
    f <*> r = .ok b ↔ ∃ g a, f = .ok g ∧ r = .ok a ∧ g a = b := by
  change seq f (fun _ => r) = .ok b ↔ _
  cases f <;> cases r <;> simp [seq, map]

end Checked

end Notebook
