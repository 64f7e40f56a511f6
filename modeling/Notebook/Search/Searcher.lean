import Notebook.Moment
import Notebook.Embedding.Engine
import Notebook.Embedding.Similarity
import Notebook.Query.Matching
import Notebook.Query.Parse
import Notebook.Search.Cache

/-!
# Searching

A query is answered by the meaning of its terms or word by word.  It asks for meaning if it has a
semantic term, or if the searcher is set to do so for every query.  Answers word by word are kept
for a while under the text of the query.

The items that are searched are of any type that carries a note.
-/

namespace Notebook

/-- Why a search has no answer. -/
inductive SearchError
  | mismatch (m : Grid.Mismatch)
  | incomparable (i : Incomparable)
  deriving DecidableEq

def SearchError.message : SearchError → String
  | .mismatch m => m.message
  | .incomparable i => i.message

structure Searcher where
  engine : Engine
  cache : Cache
  semanticMode : Bool
  semanticThreshold : Float
  similarThreshold : Float
  similarLimit : Int
  suggestionThreshold : Float
  /-- How many notes have been matched against a descriptor. -/
  matched : Nat
  deriving DecidableEq

namespace Searcher

/-- A searcher with the thresholds that are usual. -/
def new (engine : Engine) : Searcher where
  engine := engine
  cache := .new Cache.defaultThrottle Cache.defaultMaxEntries
  semanticMode := false
  semanticThreshold := 0.3
  similarThreshold := 0.6
  similarLimit := 3
  suggestionThreshold := 0.5
  matched := 0

def clearCache (s : Searcher) : Searcher := { s with cache := s.cache.clear }

variable {α : Type} (note : α → Note)

/-! ### By meaning -/

def rank (query : Grid) (threshold : Float) (inclusive : Bool) (items : List α) :
    Except SearchError (List (α × Float)) :=
  (Similarity.rank query (fun a => (note a).embedding) threshold inclusive items).mapError
    .incomparable

/-- The items whose embedding is close enough to that of a text, best first. -/
def semanticSearch (s : Searcher) (text : Text) (items : List α) :
    Except SearchError (List (α × Float)) :=
  match s.engine.embed text with
  | .error m => .error (.mismatch m)
  | .ok none => .ok []
  | .ok (some query) =>
    (rank note query s.semanticThreshold false items).map
      (·.filter fun p => (note p.1).isSearchable)

/-- The searchable items with another id than `reference`. -/
def others (reference : Note) (items : List α) : List α :=
  items.filter fun a => (note a).id ≠ reference.id && (note a).isSearchable

/-- The items similar to a note, with their scores. -/
def similarNotes (s : Searcher) (reference : Note) (threshold : Option Float) (items : List α) :
    Except SearchError (List (α × Float)) :=
  match reference.embedding with
  | none => .ok []
  | some g =>
    rank note g (threshold.getD s.suggestionThreshold) true (others note reference items)

/-- The items most similar to a note. -/
def findSimilar (s : Searcher) (reference : Note) (items : List α) :
    Except SearchError (List α) :=
  (similarNotes note s reference (some s.similarThreshold) items).map fun ps =>
    (headUpTo s.similarLimit ps).map Prod.fst

/-! ### Word by word -/

/-- The last item with the given id. -/
def lastWithId? (items : List α) (id : Text) : Option α :=
  items.reverse.find? fun a => (note a).id = id

/-- The ids of the items that a descriptor accepts. -/
def acceptedIds (d : Descriptor) (now : Moment) (items : List α) : List Text :=
  (items.filter fun a => d.accepts now (note a)).map fun a => (note a).id

/-- The ids for a query, from the cache if they are there. -/
def lexicalIds (s : Searcher) (clock : Clock) (query : Text) (d : Descriptor)
    (items : List α) : List Text × Searcher :=
  match s.cache.fresh? clock.seconds query with
  | some ids => (ids, s)
  | none =>
    let ids := acceptedIds note d clock.wall items
    (ids, { s with
      cache := s.cache.put clock.seconds query ids
      matched := s.matched + items.length })

/-- The items that a descriptor accepts, in the order of the ids that were found. -/
def lexicalSearch (s : Searcher) (clock : Clock) (query : Text) (d : Descriptor)
    (items : List α) : List α × Searcher :=
  let (ids, s) := lexicalIds note s clock query d items
  (ids.filterMap (lastWithId? note items), s)

/-! ### Queries -/

/-- How a query is answered. -/
inductive Route
  /-- A blank query: every searchable item. -/
  | everything
  /-- Nothing but invalid words: no item. -/
  | nothing
  | meaning (text : Text)
  | words (d : Descriptor)
  deriving DecidableEq

/-- The terms whose meaning a query asks for. -/
def meaningTerms (semanticMode : Bool) (d : Descriptor) : List Text :=
  if d.isSemantic then d.semanticTerms else if semanticMode then d.textTerms else []

def route (semanticMode : Bool) (query : Text) : Route :=
  if Text.isBlankText query then .everything
  else
    let q := Query.parse query
    if !q.discarded.isEmpty && q.discarded.length == (Text.words query).length then .nothing
    else
      match meaningTerms semanticMode q.descriptor with
      | [] => .words q.descriptor
      | terms => .meaning (Text.intercalate " " terms)

/-- The answer to a query, and the searcher afterwards. -/
def search (s : Searcher) (clock : Clock) (query : Text) (items : List α) :
    Except SearchError (List α) × Searcher :=
  match route s.semanticMode query with
  | .everything => (.ok (items.filter fun a => (note a).isSearchable), s)
  | .nothing => (.ok [], s)
  | .meaning text => ((semanticSearch note s text items).map (·.map Prod.fst), s)
  | .words d =>
    let (found, s) := lexicalSearch note s clock query d items
    (.ok found, s)

end Searcher

end Notebook
