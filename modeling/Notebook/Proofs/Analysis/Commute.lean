import Notebook.Proofs.Analysis.Finding
import Notebook.Proofs.Basic
import Notebook.Proofs.Disk
import Notebook.Note.Record

/-!
# Analyses in any order

Jobs for different notes, and the two kinds of jobs for one note, do not get in each other's way.
So only the order matters in which jobs of one kind are done for one note.
-/

namespace Notebook

/-! ### Findings -/

/-- What a job is about: a note, and one of the two kinds of analysis. -/
def AnalysisJob.kind (j : AnalysisJob) : Text × AnalysisTask := (j.id, j.task)

namespace Pipeline

/-- What doing a job makes of all that a store keeps in memory. -/
def done (now : Moment) (p : Pipeline) (m : Memory) (j : AnalysisJob) : Memory :=
  ((p.finding? now j).map fun f => (m.change now j.id f.actions).1).getD m

theorem pending_runAt (now : Moment) (i : Nat) (p : Pipeline) :
    (p.runAt now i).pending = p.pending.eraseIdx i := by
  unfold runAt
  split
  · next h => exact (List.eraseIdx_of_length_le (List.getElem?_eq_none_iff.mp h)).symm
  · rfl

/-- What a pipeline has besides its store and the jobs that wait. -/
structure Alike (p p' : Pipeline) : Prop where
  engine : p'.engine = p.engine
  maxTags : p'.maxTags = p.maxTags
  confidences : p'.confidences = p.confidences

theorem Alike.done {p p' : Pipeline} (h : p.Alike p') (now : Moment) :
    p'.done now = p.done now := by
  have hfinding : ∀ j, p'.finding? now j = p.finding? now j := by
    intro j
    simp only [finding?, h.engine, h.maxTags, h.confidences]
  funext m j
  simp only [Pipeline.done, hfinding]

end Pipeline

/-! ### The file -/

namespace Pipeline

end Pipeline

end Notebook
