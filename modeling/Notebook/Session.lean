import Notebook.Analysis.Pipeline
import Notebook.Search.Searcher
import Notebook.Settings

/-!
# Sessions

A session searches and analyzes the notes of one store.  Its searcher and its pipeline have the
same engine.  A note that is added through the session is found by the next search; what the
searcher has kept is forgotten then.
-/

namespace Notebook

structure Session where
  searcher : Searcher
  pipeline : Pipeline

namespace Session

/-- A session over a store with an engine, by the settings; confidences are drawn with the given
fractions. -/
def new (settings : Settings) (store : Store) (engine : Engine) (fractions : List Float) :
    Session where
  searcher :=
    { engine := engine
      cache := .new settings.queryThrottleSeconds settings.queryCacheMaxEntries
      semanticMode := settings.semanticSearchEnabled
      semanticThreshold := settings.semanticSearchThreshold
      similarThreshold := settings.similarNotesThreshold
      similarLimit := settings.similarNotesLimit
      suggestionThreshold := settings.suggestionThreshold
      matched := 0 }
  pipeline := .new engine store
    (.between settings.tagConfidenceMin settings.tagConfidenceMax fractions)
    settings.maxSuggestedTags

def store (s : Session) : Store := s.pipeline.store

def withStore (store : Store) (s : Session) : Session :=
  { s with pipeline := { s.pipeline with store := store } }

/-- Search the given notes, or all notes of the store. -/
def search (clock : Clock) (query : Text) (notes : Option (List Note)) (s : Session) :
    Except SearchError (List Note) × Session :=
  let (found, searcher) := s.searcher.search id clock query (notes.getD s.store.notes)
  (found, { s with searcher := searcher })

/-- The notes most similar to a note, among the given ones or all notes of the store. -/
def findSimilar (reference : Note) (notes : Option (List Note)) (s : Session) :
    Except SearchError (List Note) :=
  s.searcher.findSimilar id reference (notes.getD s.store.notes)

/-- Put a note into the store and forget what was found before, if that does not end with an
error. -/
def add? (now : Moment) (n : Note) (s : Session) : Option Session :=
  (s.store.add? now n).map fun store =>
    match s.store.failure? now (.add n) with
    | none => { s.withStore store with searcher := s.searcher.clearCache }
    | some _ => s.withStore store

/-- Analyze a note and wait for the results. -/
def analyze? (now : Moment) (n : Note) (s : Session) : Option Session :=
  (s.pipeline.analyze? n).map fun p => { s with pipeline := p.runAll now }

/-- Analyze notes, one after another. -/
def analyzeAll? (now : Moment) : List Note → Session → Option Session
  | [], s => some s
  | n :: ns, s => (s.analyze? now n).bind (analyzeAll? now ns)

def close (s : Session) : Session := { s with pipeline := s.pipeline.shutdown }

end Session

end Notebook
