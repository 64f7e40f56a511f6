import Notebook.CommandLine.Arguments
import Notebook.Embedding.WordTable
import Notebook.Session

/-!
# Searching from the command line

Search the notes of a file and write a line for every note that is found, as far as the letters of
the lines can be written.  On request all notes are analyzed before, and the results are saved in
the file.
-/

namespace Notebook.CommandLine

/-- Why a run has come to nothing. -/
inductive Failure
  | load (e : LoadError)
  | search (e : SearchError)
  /-- A line that cannot be written. -/
  | unprintable

def Failure.message : Failure → String
  | .load e => e.message
  | .search e => e.message
  | .unprintable => "the line of a note has letters that cannot be written"

/-- What a run leaves behind. -/
structure Outcome where
  misused : Bool
  output : Text
  failure : Option Failure
  disk : Disk

/-- Two where the command line made no sense, one where something went wrong later on. -/
def Outcome.exitCode (o : Outcome) : UInt32 :=
  if o.misused then 2 else if o.failure.isSome then 1 else 0

/-- The arguments when no option is given. -/
def usual (settings : Settings) : Arguments :=
  ⟨"", settings.notesStorePath, settings.wordVectorsPath, false, settings.semanticSearchEnabled⟩

/-- Id, title and tags of a note. -/
def line (n : Note) : Text :=
  n.id ++ "\t" ++ n.title ++ "\t" ++ Text.intercalate " " (n.tags.map ("#" ++ ·)) ++ "\n"

def lines (ns : List Note) : Text := Text.join (ns.map line)

/-- Write the lines of the notes to where only some letters can be written.  The first line with
another letter is not written, and nothing after it. -/
def report (takes : Letter → Bool) (ns : List Note) (disk : Disk) : Outcome :=
  let written := ns.takeWhile fun n => (line n).toList.all takes
  ⟨false, lines written, if written.length = ns.length then none else some .unprintable, disk⟩

/-- An engine that has tried to load the word table of a file. -/
def engineOf (path : Text) (disk : Disk) : Engine :=
  (Engine.new (some (WordTable.load path disk).toOption)).start.finish

/-- The file of the notes; an empty path names none. -/
def Arguments.file? (a : Arguments) : Option Text :=
  if a.notesFile.isEmpty then none else some a.notesFile

/-- Search by the arguments. -/
def searchFile (settings : Settings) (clock : Clock) (fractions : List Float)
    (takes : Letter → Bool) (a : Arguments) (disk : Disk) : Outcome :=
  match Store.open? clock.wall a.file? disk false with
  | .error e => ⟨false, "", some (.load e), disk⟩
  | .ok store =>
    let session := Session.new { settings with semanticSearchEnabled := a.semantic } store
      (engineOf a.wordVectors disk) fractions
    let session := if a.analyze then
        (session.analyzeAll? clock.wall store.notes).getD session
      else session
    match session.search clock a.query none with
    | (.ok found, session) => report takes found session.store.memory.disk
    | (.error e, session) => ⟨false, "", some (.search e), session.store.memory.disk⟩

def run (settings : Settings) (clock : Clock) (fractions : List Float) (takes : Letter → Bool)
    (words : List Text) (disk : Disk) : Outcome :=
  match parse (usual settings) words with
  | .search a => searchFile settings clock fractions takes a disk
  | .help => ⟨false, "", none, disk⟩
  | .misuse => ⟨true, "", none, disk⟩

end Notebook.CommandLine
