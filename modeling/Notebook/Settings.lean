import Notebook.Fields.Read

/-!
# Settings

The settings come from the environment and from arguments, of which the arguments win.  Names are
read in any case; of two arguments for one setting the one with other letters than the name wins.
-/

namespace Notebook

structure Settings where
  notesStorePath : Text
  wordVectorsPath : Text
  semanticSearchEnabled : Bool
  semanticSearchThreshold : Float
  similarNotesThreshold : Float
  similarNotesLimit : Int
  suggestionThreshold : Float
  queryThrottleSeconds : Float
  queryCacheMaxEntries : Int
  maxSuggestedTags : Int
  tagConfidenceMin : Float
  tagConfidenceMax : Float
  logLevel : Text
  deriving DecidableEq

namespace Settings

/-- The settings when nothing is given. -/
def default : Settings where
  notesStorePath := "data/notes.json"
  wordVectorsPath := "data/word_vectors.txt"
  semanticSearchEnabled := false
  semanticSearchThreshold := 0.3
  similarNotesThreshold := 0.6
  similarNotesLimit := 3
  suggestionThreshold := 0.5
  queryThrottleSeconds := 0.5
  queryCacheMaxEntries := 50
  maxSuggestedTags := 5
  tagConfidenceMin := 0.7
  tagConfidenceMax := 0.95
  logLevel := "INFO"

def ofFields (fields : Keyed Json) : Checked Settings :=
  Settings.mk <$> Fields.defaulted "notes_store_path" default.notesStorePath Fields.text fields
    <*> Fields.defaulted "word_vectors_path" default.wordVectorsPath Fields.text fields
    <*> Fields.defaulted "semantic_search_enabled" default.semanticSearchEnabled Fields.flag fields
    <*> Fields.defaulted "semantic_search_threshold" default.semanticSearchThreshold
      Fields.number fields
    <*> Fields.defaulted "similar_notes_threshold" default.similarNotesThreshold
      Fields.number fields
    <*> Fields.defaulted "similar_notes_limit" default.similarNotesLimit Fields.whole fields
    <*> Fields.defaulted "suggestion_threshold" default.suggestionThreshold Fields.number fields
    <*> Fields.defaulted "query_throttle_seconds" default.queryThrottleSeconds Fields.number fields
    <*> Fields.defaulted "query_cache_max_entries" default.queryCacheMaxEntries Fields.whole fields
    <*> Fields.defaulted "max_suggested_tags" default.maxSuggestedTags Fields.whole fields
    <*> Fields.defaulted "tag_confidence_min" default.tagConfidenceMin Fields.number fields
    <*> Fields.defaulted "tag_confidence_max" default.tagConfidenceMax Fields.number fields
    <*> Fields.defaulted "log_level" default.logLevel Fields.text fields

def names : List Text :=
  ["notes_store_path", "word_vectors_path", "semantic_search_enabled",
   "semantic_search_threshold", "similar_notes_threshold", "similar_notes_limit",
   "suggestion_threshold", "query_throttle_seconds", "query_cache_max_entries",
   "max_suggested_tags", "tag_confidence_min", "tag_confidence_max", "log_level"]

def smallName (s : Text) : Text := .ofList (s.toList.map Letter.toLower)

/-- The values of the environment under the names in small letters. -/
def ofEnvironment (env : List (Text × Text)) : Keyed Json :=
  Keyed.ofPairs (env.map fun (k, v) => (smallName k, .str v))

/-- Arguments that are no settings. -/
def unknown : List (Text × Json) → Checked Unit
  | [] => .ok ()
  | (k, _) :: r =>
    if names.contains (smallName k) then unknown r
    else (fun (_ _ : Unit) => ()) <$> Checked.under k (.fault .unknownField) <*> unknown r

/-- The arguments in the order in which a later one takes the place of an earlier one. -/
def ordered (args : List (Text × Json)) : List (Text × Json) :=
  let (exact, other) := args.partition fun (k, _) => names.contains k
  exact ++ other

def ofSources (env : List (Text × Text)) (args : List (Text × Json)) : Checked Settings :=
  let fields := (ordered args).foldl (fun r (k, v) => Keyed.insert (smallName k) v r)
    (ofEnvironment env)
  (fun s (_ : Unit) => s) <$> ofFields fields <*> unknown args

def toRecord (s : Settings) : Json :=
  .obj
    [("notes_store_path", .str s.notesStorePath),
     ("word_vectors_path", .str s.wordVectorsPath),
     ("semantic_search_enabled", .bool s.semanticSearchEnabled),
     ("semantic_search_threshold", .float s.semanticSearchThreshold),
     ("similar_notes_threshold", .float s.similarNotesThreshold),
     ("similar_notes_limit", .int s.similarNotesLimit),
     ("suggestion_threshold", .float s.suggestionThreshold),
     ("query_throttle_seconds", .float s.queryThrottleSeconds),
     ("query_cache_max_entries", .int s.queryCacheMaxEntries),
     ("max_suggested_tags", .int s.maxSuggestedTags),
     ("tag_confidence_min", .float s.tagConfidenceMin),
     ("tag_confidence_max", .float s.tagConfidenceMax),
     ("log_level", .str s.logLevel)]

end Settings

end Notebook
