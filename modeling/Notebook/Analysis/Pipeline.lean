import Notebook.Analysis.Attachment
import Notebook.Analysis.Confidence
import Notebook.Analysis.Entities
import Notebook.Embedding.Engine
import Notebook.Store.Basic

/-!
# Analysis of notes

The analysis of a note is two jobs, one for its tags and one for its embedding.  Each works on the
text that the note had when it was handed in, and hands its result to the store as a change of the
note; if the note is gone by then, the result is dropped.
-/

namespace Notebook

inductive AnalysisTask
  | tags
  | embedding
  deriving DecidableEq, Repr

/-- A job that waits, with the text that it works on. -/
structure AnalysisJob where
  task : AnalysisTask
  id : Text
  text : Text
  deriving DecidableEq, Repr

structure Pipeline where
  engine : Engine
  store : Store
  confidences : Confidences
  maxTags : Int
  pending : List AnalysisJob
  /-- Has the pool of workers been shut down? -/
  closed : Bool

namespace Pipeline

def defaultMaxTags : Int := 5

def new (engine : Engine) (store : Store) (confidences : Confidences) (maxTags : Int) :
    Pipeline := ⟨engine, store, confidences, maxTags, [], false⟩

/-- The two jobs of a note, on its texts of now. -/
def jobsOf (n : Note) : List AnalysisJob :=
  [⟨.tags, n.id, plainText n.title n.body⟩, ⟨.embedding, n.id, n.title ++ " " ++ n.body⟩]

/-- Hand a note in; a pool that was shut down takes none. -/
def analyze? (n : Note) (p : Pipeline) : Option Pipeline :=
  if p.closed then none else some { p with pending := p.pending ++ jobsOf n }

def shutdown (p : Pipeline) : Pipeline := { p with closed := true }

def closedMessage : String := "cannot schedule new futures after shutdown"

/-! ### Doing jobs -/

/-- What a job comes to at the moment `now`: the actions on its note, if it does not fail, and the
source of confidences afterwards. -/
def outcome (now : Moment) (p : Pipeline) (j : AnalysisJob) :
    Option (List Action) × Confidences :=
  match j.task with
  | .tags =>
    let tags := entities p.maxTags j.text
    let (cs, source) := p.confidences.take tags
    (cs.map fun cs => [.suggest tags cs now], source)
  | .embedding =>
    match p.engine.embed j.text with
    | .ok g => (some [.embed g], p.confidences)
    | .error _ => (none, p.confidences)

/-- Do a job; its result is submitted to the store. -/
def perform (now : Moment) (j : AnalysisJob) (p : Pipeline) : Pipeline :=
  let (actions, source) := p.outcome now j
  { p with
    confidences := source
    store := match actions with
      | some as => p.store.change j.id as
      | none => p.store }

/-- Wait until the store has taken up all results. -/
def settle (now : Moment) (p : Pipeline) : Pipeline :=
  { p with store := (p.store.settle now).2 }

/-- Do the job at place `i` of those that wait. -/
def runAt (now : Moment) (i : Nat) (p : Pipeline) : Pipeline :=
  match p.pending[i]? with
  | none => p
  | some j => (perform now j { p with pending := p.pending.eraseIdx i }).settle now

/-- Do `n` jobs, always the oldest. -/
def runOldest (now : Moment) : Nat → Pipeline → Pipeline
  | 0, p => p
  | n + 1, p => runOldest now n (p.runAt now 0)

/-- Do `n` jobs, always the newest. -/
def runNewest (now : Moment) : Nat → Pipeline → Pipeline
  | 0, p => p
  | n + 1, p => runNewest now n (p.runAt now (p.pending.length - 1))

/-- Do all jobs that wait. -/
def runAll (now : Moment) (p : Pipeline) : Pipeline := p.runOldest now p.pending.length

end Pipeline

end Notebook
