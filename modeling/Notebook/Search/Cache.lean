import Notebook.Keyed

/-!
# Result cache

The ids that a query has found are kept for a short time under the text of the query.  A query
that is new to a full cache clears it first.
-/

namespace Notebook

/-- The ids that were found, and the time when they were looked for. -/
structure CacheEntry where
  ids : List Text
  time : Float
  deriving DecidableEq

structure Cache where
  /-- For how many seconds an entry is good. -/
  throttle : Float
  maxEntries : Int
  entries : Keyed CacheEntry
  deriving DecidableEq

namespace Cache

def defaultThrottle : Float := 0.5

def defaultMaxEntries : Int := 50

def new (throttle : Float) (maxEntries : Int) : Cache := ⟨throttle, maxEntries, []⟩

def size (c : Cache) : Nat := c.entries.length

def contains (c : Cache) (query : Text) : Bool := (c.entries.get? query).isSome

def clear (c : Cache) : Cache := { c with entries := [] }

/-- The ids of an entry that is still good at time `now`. -/
def fresh? (c : Cache) (now : Float) (query : Text) : Option (List Text) :=
  match c.entries.get? query with
  | some e => if now - e.time < c.throttle then some e.ids else none
  | none => none

/-- Keep the ids that were found at time `now`. -/
def put (c : Cache) (now : Float) (query : Text) (ids : List Text) : Cache :=
  let kept := if !c.contains query && c.maxEntries ≤ c.size then [] else c.entries
  { c with entries := Keyed.insert query ⟨ids, now⟩ kept }

/-- What a look-up comes to. -/
inductive Lookup (ε : Type)
  /-- The ids of an entry. -/
  | hit (ids : List Text)
  /-- Ids that had to be looked for. -/
  | computed (ids : List Text)
  | failed (e : ε)

variable {ε : Type}

/-- The ids of a query: those of a good entry, or else what `compute` finds.  A failure leaves the
cache as it was. -/
def lookup (c : Cache) (now : Float) (query : Text) (compute : Unit → Except ε (List Text)) :
    Lookup ε × Cache :=
  match c.fresh? now query with
  | some ids => (.hit ids, c)
  | none =>
    match compute () with
    | .ok ids => (.computed ids, c.put now query ids)
    | .error e => (.failed e, c)

@[simp] theorem size_clear (c : Cache) : c.clear.size = 0 := rfl

@[simp] theorem throttle_put (c : Cache) (now : Float) (query : Text) (ids : List Text) :
    (c.put now query ids).throttle = c.throttle := rfl

@[simp] theorem maxEntries_put (c : Cache) (now : Float) (query : Text) (ids : List Text) :
    (c.put now query ids).maxEntries = c.maxEntries := rfl

end Cache

end Notebook
