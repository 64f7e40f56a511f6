import Notebook.Json.Reader
import Notebook.Store.Memory

/-!
# Loading notes

The notes of a file: a record with a list of records under `notes`, each with its `id`.  Of two
notes with one id the later one is kept, in the place of the earlier.
-/

namespace Notebook

/-- Why a file cannot be loaded. -/
inductive LoadError
  | file (e : FileError)
  | undecodable
  | unreadable (e : Json.ReadError)
  /-- A value that should be a record or a list is something else. -/
  | malformed
  | missing (key : Text)
  | faulty (faults : List Fault)
  | broken (cause : Breakdown)
  deriving DecidableEq

def LoadError.message : LoadError → String
  | .file e => e.message
  | .undecodable => "the notes file holds no text"
  | .unreadable e => e.message
  | .malformed => "the notes file holds no list of notes"
  | .missing key => "the notes file has no field " ++ Text.quoted key
  | .faulty fs =>
    "unfit fields: " ++ ", ".intercalate (fs.map fun f => (Text.intercalate "." f.place).shown)
  | .broken c => c.message

namespace Memory

/-- One of the notes of a file. -/
def noteOf (now : Moment) : Json → Except LoadError Note
  | .obj fields =>
    let fields := Keyed.ofPairs fields
    match fields.get? "id" with
    | none => .error (.missing "id")
    | some _ =>
      match Note.ofFields now fields with
      | .ok n => .ok n
      | .faulty fs => .error (.faulty fs)
      | .broken c => .error (.broken c)
  | _ => .error .malformed

def notesOf (now : Moment) : List Json → Except LoadError (List Note)
  | [] => .ok []
  | v :: vs => do
    let n ← noteOf now v
    let ns ← notesOf now vs
    return n :: ns

/-- What goes through as a list: also an empty text or record. -/
def items? : Json → Option (List Json)
  | .arr vs => some vs
  | .obj [] => some []
  | .str s => if s.isEmpty then some [] else none
  | _ => none

def notesOfRecord (now : Moment) : Json → Except LoadError (List Note)
  | .obj fields =>
    match Keyed.get? "notes" fields with
    | none => .error (.missing "notes")
    | some v =>
      match items? v with
      | some vs => notesOf now vs
      | none => .error .malformed
  | _ => .error .malformed

def notesOfFile (now : Moment) (file : Text.Decoded) : Except LoadError (List Note) :=
  match file.ending with
  | .complete =>
    match Json.ofChars file.text with
    | .ok v => notesOfRecord now v
    | .error e => .error (.unreadable e)
  | _ => .error .undecodable

/-- Notes filed under their ids. -/
def filed (ns : List Note) : Keyed Note := Keyed.ofPairs (ns.map fun n => (n.id, n))

/-- What a store with the file `path` begins with.  A file that is not there yet holds no note. -/
def load (now : Moment) (path : Option Text) (disk : Disk) : Except LoadError Memory :=
  match path with
  | none => .ok ⟨[], disk, none, .idle⟩
  | some p =>
    match disk.holds p with
    | .error e => .error (.file e)
    | .ok false => .ok ⟨[], disk, path, .idle⟩
    | .ok true =>
      match disk.read p with
      | .error e => .error (.file e)
      | .ok file => (notesOfFile now file).map fun ns => ⟨filed ns, disk, path, .idle⟩

end Memory

end Notebook
