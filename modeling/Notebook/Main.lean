import Notebook.CommandLine.Run
import Std.Time.DateTime.Timestamp

/-!
# The command line program

Reads the two files that a request names, searches, prints the notes that were found, and writes
the notes back if they were analyzed.
-/

namespace Notebook.CommandLine

/-- What stands at a path, with the directories on the way there. -/
def readEntry (path : Text) : IO Disk := do
  let ps := Disk.placeOf path
  let above := (List.range ps.length).map fun k => (ps.take k, DiskEntry.directory)
  try
    let bytes ← IO.FS.readBinFile path.shown
    return above ++ [(ps, .file (Text.decode bytes.toList))]
  catch
    | .noFileOrDirectory .. => return []
    | _ => return above ++ [(ps, .directory)]

/-- The files that a request needs. -/
def readDisk : Request → IO Disk
  | .search a => return (← readEntry a.notesFile) ++ (← readEntry a.wordVectors)
  | _ => return []

def readEnvironment : IO (List (Text × Text)) := do
  let mut found := []
  for name in Settings.names do
    for spelling in [name.shown, name.shown.toUpper] do
      match ← IO.getEnv spelling with
      | some value => found := found ++ [(Text.ofString spelling, Text.ofString value)]
      | none => pure ()
  return found

def readClock : IO Clock := do
  let seconds := (← Std.Time.Timestamp.now).toSecondsSinceUnixEpoch.val
  return .startingAt (Moment.ofInstant (some .zero) (seconds * 1000000 + Moment.epoch))

def readFractions (n : Nat) : IO (List Float) :=
  (List.range n).mapM fun _ => do
    return Decimal.ofNat (← IO.rand 0 999999) / 1000000.0

/-- Write the notes back if they have changed. -/
def saveNotes (path : Text) (before after : Disk) : IO Unit :=
  match before.read path, after.read path with
  | .ok old, .ok new =>
    if old = new then pure () else IO.FS.writeFile path.shown (String.ofList new.text)
  | _, _ => pure ()

/-- What can be written to the output. -/
def isCharacter : Letter → Bool
  | .char _ => true
  | .half _ => false

def usageText : String :=
  "usage: notebook [-h] [--notes-file FILE] [--word-vectors FILE] [--analyze] [--semantic] query"

/-- The program; the answer is its exit code. -/
def program (words : List Text) : IO UInt32 := do
  match Settings.ofSources (← readEnvironment) [] with
  | .ok settings =>
    let request := parse (usual settings) words
    let disk ← readDisk request
    let r := run settings (← readClock) (← readFractions 1000) isCharacter words disk
    match request with
    | .misuse => IO.eprintln usageText
    | .help => IO.println usageText
    | .search a =>
      saveNotes a.notesFile disk r.disk
      IO.print r.output.shown
      if let some e := r.failure then IO.eprintln e.message
    return r.exitCode
  | _ =>
    IO.eprintln "the settings could not be read"
    return 1

end Notebook.CommandLine

def main (words : List String) : IO UInt32 :=
  Notebook.CommandLine.program (words.map Notebook.Text.ofString)
