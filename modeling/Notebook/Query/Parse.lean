import Notebook.Query.Descriptor
import Notebook.Query.Token

/-!
# Reading queries

A query is read word by word; each token adds to the descriptor.  Of two tokens that give the same
single value the later one counts.  Invalid words are set aside.
-/

namespace Notebook

structure Query where
  descriptor : Descriptor := {}
  discarded : List Text := []
  deriving DecidableEq

namespace Query

def empty : Query := {}

/-- A required tag is listed once. -/
def withTag (tag : Text) (tags : List Text) : List Text :=
  if tag ∈ tags then tags else tags ++ [tag]

/-- The descriptor with what a valid token asks for. -/
def refine (d : Descriptor) : Token → Descriptor
  | .tag t => { d with requiredTags := withTag t d.requiredTags }
  | .semantic t => { d with semanticTerms := d.semanticTerms ++ [t] }
  | .favorite => { d with requireFavorite := true }
  | .tasks => { d with requireTasks := true }
  | .overdue => { d with requireOverdue := true }
  | .priority p => { d with priority := some p }
  | .progress x => { d with minProgress := some x }
  | .due a => { d with dueBefore := some (Moment.ofDate a) }
  | .anyTag => { d with tagMode := .any }
  | .free t => { d with textTerms := d.textTerms ++ [t] }
  | .invalid _ => d

def add (q : Query) (t : Token) : Query :=
  ⟨refine q.descriptor t, match t with
    | .invalid w => q.discarded ++ [w]
    | _ => q.discarded⟩

def ofTokens (ts : List Token) : Query := ts.foldl add empty

def tokens (raw : Text) : List Token := (Text.words raw).map Token.ofWord

def parse (raw : Text) : Query := ofTokens (tokens raw)

@[simp] theorem ofTokens_nil : ofTokens [] = empty := rfl

theorem ofTokens_concat (ts : List Token) (t : Token) :
    ofTokens (ts ++ [t]) = (ofTokens ts).add t := by simp [ofTokens]

end Query

end Notebook
