import Notebook.Store.Load

/-!
# Stores

A store keeps notes in memory and, if it has a file, writes them to it whenever they change.  All
writes go through one channel.  A store closes its channel with itself, unless it shares it with
others.
-/

namespace Notebook

structure Store where
  channel : Channel Memory Job
  /-- Does the channel belong to others too? -/
  shared : Bool

namespace Store

def ofMemory (m : Memory) (shared : Bool) : Store := ⟨(Channel.new m).start, shared⟩

/-- A store of the given notes that has no file. -/
def ofNotes (ns : List Note) (disk : Disk) (shared : Bool) : Store :=
  ofMemory ⟨Memory.filed ns, disk, none, .idle⟩ shared

/-- A store on a file. -/
def open? (now : Moment) (path : Option Text) (disk : Disk) (shared : Bool) :
    Except LoadError Store :=
  (Memory.load now path disk).map (ofMemory · shared)

/-! ### Reading -/

def memory (s : Store) : Memory := s.channel.state

/-- All notes in the order in which they came. -/
def notes (s : Store) : List Note := s.memory.notes.values

def fetch? (id : Text) (s : Store) : Option Note := s.memory.notes.get? id

def sync (s : Store) : SyncStatus := s.memory.sync

def isOpen (s : Store) : Bool := s.channel.running

/-! ### Writing -/

def submit (j : Job) (s : Store) : Store := { s with channel := s.channel.submit j }

/-- Submit a job and wait until it is done, whether or not that ends with an error; a store whose
channel stands still takes none. -/
def write? (now : Moment) (j : Job) (s : Store) : Option Store :=
  if s.isOpen then
    some { s with channel := ((s.channel.submit j).flush (Memory.worker now)).2 }
  else none

/-- The error that comes back with a job when it is done. -/
def failure? (now : Moment) (j : Job) (s : Store) : Option FileError :=
  Memory.failureOf? j (s.channel.steps (Memory.worker now) s.channel.queue.length).state

def add? (now : Moment) (n : Note) (s : Store) : Option Store := s.write? now (.add n)

def delete? (now : Moment) (id : Text) (s : Store) : Option Store := s.write? now (.delete id)

/-- Submit a change of a note, without waiting for it. -/
def change (id : Text) (actions : List Action) (s : Store) : Store :=
  s.submit (.change id actions)

/-- Wait until all jobs are done.  The answer is false if the channel stands still and jobs are
left. -/
def settle (now : Moment) (s : Store) : Bool × Store :=
  let (done, c) := s.channel.settle (Memory.worker now)
  (done, { s with channel := c })

/-- Stop the channel, unless it is shared. -/
def close (now : Moment) (visits : Nat) (ends : Bool) (s : Store) : Store :=
  if s.shared then s else { s with channel := s.channel.stop (Memory.worker now) visits ends }

/-- Close a store whose writer comes to its end in time. -/
def closeInTime (now : Moment) (s : Store) : Store := s.close now s.channel.queue.length true

/-- The store with a new value in one field of a note, set at once and not by the writer; none if
there is no such note. -/
def assign? (id field : Text) (value : Json) (s : Store) : Option (Checked Store) :=
  (s.fetch? id).map fun n => (n.assign field value).map fun n =>
    { s with channel := { s.channel with state :=
      { s.memory with notes := Keyed.insert id n s.memory.notes } } }

/-! ### Files -/

/-- Why the notes cannot be saved. -/
inductive SaveError
  | noPath
  | file (e : FileError)
  deriving DecidableEq

def SaveError.message : SaveError → String
  | .noPath => "No filepath provided and no default filepath set during initialization"
  | .file e => e.message

def withDisk (disk : Disk) (s : Store) : Store :=
  { s with channel := { s.channel with state := { s.channel.state with disk := disk } } }

/-- Save the notes to a file, that of the store if none is given. -/
def save (path : Option Text) (s : Store) : Except SaveError Store :=
  match path.or s.memory.path with
  | none => .error .noPath
  | some p =>
    match s.memory.save p with
    | .ok disk => .ok (s.withDisk disk)
    | .error e => .error (.file e)

def closedMessage : String := "Note store is closed"

end Store

end Notebook
