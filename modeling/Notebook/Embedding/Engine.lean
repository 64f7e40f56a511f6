import Notebook.Embedding.WordTable

/-!
# Embedding engines

An engine loads its word table once, in the background.  Until the table is there no text has an
embedding, and a loading that has failed is not tried again.
-/

namespace Notebook

/-- How far the loading has come. -/
inductive LoadStage
  | idle
  | loading
  | ended
  deriving DecidableEq, Repr

structure Engine where
  /-- What the loader comes to, if there is a loader: a table, or a failure. -/
  loader : Option (Option WordTable)
  stage : LoadStage
  table : Option WordTable
  /-- How often the loader was called. -/
  calls : Nat
  deriving DecidableEq

namespace Engine

def new (loader : Option (Option WordTable)) : Engine := ⟨loader, .idle, none, 0⟩

/-- An engine around a table that is there already. -/
def ofTable (t : WordTable) : Engine := ⟨none, .ended, some t, 0⟩

def isLoaded (e : Engine) : Bool := e.table.isSome

/-- Would one who waits for the end of the loading have to wait? -/
def blocks (e : Engine) : Bool := e.stage != .ended

/-- Begin to load.  Only the first time anything happens; without a loader the loading ends at
once. -/
def start (e : Engine) : Engine :=
  match e.stage, e.loader with
  | .idle, none => { e with stage := .ended }
  | .idle, some _ => { e with stage := .loading, calls := e.calls + 1 }
  | _, _ => e

/-- The loader has come to its end. -/
def finish (e : Engine) : Engine :=
  match e.stage with
  | .loading => { e with stage := .ended, table := e.loader.join }
  | _ => e

def embed (e : Engine) (text : Text) : Except Grid.Mismatch (Option Grid) :=
  match e.table with
  | none => .ok none
  | some t => t.embed text

end Engine

end Notebook
