import Notebook.Text.Blank
import Notebook.Text.Quoted
import Notebook.Text.Utf8

/-!
# Files

A disk holds files and directories under paths.  A path leads from one directory to the next, and
a file can be written only into a directory that is there.
-/

namespace Notebook

inductive DiskEntry
  | file (content : Text.Decoded)
  | directory
  deriving DecidableEq

/-- What stands at a place, which is given by the names that lead there from the top. -/
abbrev Disk := List (List Text × DiskEntry)

inductive FileReason
  | notFound
  | notDirectory
  | isDirectory
  | nameTooLong
  /-- A zero character in the path. -/
  | zeroInPath
  /-- Halves of pairs in the path, from place `first` to place `last`. -/
  | unencodable (first last : Nat)
  deriving DecidableEq, Repr

/-- Does the system refuse, which has the path?  Otherwise the path is none. -/
def FileReason.isSystems : FileReason → Bool
  | .zeroInPath | .unencodable .. => false
  | _ => true

structure FileError where
  reason : FileReason
  path : Text
  deriving DecidableEq, Repr

namespace Disk

/-- What is said of letters of a path that cannot be encoded. -/
def encodingMessage (path : Text) (first last : Nat) : String :=
  "'utf-8' codec can't encode character" ++
    (if first = last then
      " '" ++ (Text.ofList (path.toList[first]?.toList)).shown ++ "' in position " ++ toString first
    else "s in position " ++ toString first ++ "-" ++ toString last) ++
    ": surrogates not allowed"

end Disk

namespace FileError

def message (e : FileError) : String :=
  match e.reason with
  | .notFound => "[Errno 2] No such file or directory: " ++ Text.quoted e.path
  | .notDirectory => "[Errno 20] Not a directory: " ++ Text.quoted e.path
  | .isDirectory => "[Errno 21] Is a directory: " ++ Text.quoted e.path
  | .nameTooLong => "[Errno 36] File name too long: " ++ Text.quoted e.path
  | .zeroInPath => "embedded null byte"
  | .unencodable first last => Disk.encodingMessage e.path first last

end FileError

namespace Disk

/-! ### Paths -/

def names (path : Text) : List Text :=
  ((Text.pieces (.char '/') path.toList).map Text.ofList).filter (· ≠ "")

/-- The place that a name stands for in the directory at `here`: one point stands for the directory
itself, and two for the one that holds it. -/
def place (here : List Text) (name : Text) : List Text :=
  if name = "." then here else if name = ".." then here.dropLast else here ++ [name]

/-- The place that a path leads to if all directories on it are there. -/
def placeOf (path : Text) : List Text := (names path).foldl place []

/-- A path without lone points and without slashes that separate nothing. -/
def tidy (path : Text) : Text :=
  (if path.toList.head? = some (.char '/') then "/" else "") ++
    Text.intercalate "/" ((names path).filter (· ≠ "."))

/-- Can the letter stand in a path?  Of the halves of pairs some stand for single bytes. -/
def isEncodable : Letter → Bool
  | .char _ => true
  | .half n => 0x480 ≤ n.val && n.val ≤ 0x4FF

/-- The bytes of a letter in a path. -/
def letterSize : Letter → Nat
  | .char c => c.utf8Size
  | .half _ => 1

def size (s : Text) : Nat := s.toList.foldr (fun l n => letterSize l + n) 0

/-- Why the system cannot have such a path, if it cannot.  The halves that are told of begin with
the first that cannot be encoded and end with the row of halves in which it stands. -/
def refusal? (path : Text) : Option FileReason :=
  match path.toList.dropWhile isEncodable with
  | [] => if path.toList.contains '\x00' then some .zeroInPath else none
  | r =>
    let first := path.length - r.length
    some (.unencodable first (first + (r.takeWhile fun l => l.isHigh || l.isLow).length - 1))

/-- Can the system have such a path? -/
def isPath (path : Text) : Bool := (refusal? path).isNone

/-- Does the path ask for a directory? -/
def asksDirectory (path : Text) : Bool := path.toList.getLast? = some (.char '/')

/-- The most bytes of a name. -/
def maxNameSize : Nat := 255

/-- The most bytes of a path. -/
def maxPathSize : Nat := 4095

/-! ### Places -/

def at? (ps : List Text) (d : Disk) : Option DiskEntry :=
  match d with
  | [] => none
  | (qs, e) :: r => if qs = ps then some e else at? ps r

/-- What stands at a place.  At the top there is always a directory. -/
def node? (ps : List Text) (d : Disk) : Option DiskEntry :=
  if ps = [] then some .directory else d.at? ps

def set (ps : List Text) (e : DiskEntry) : Disk → Disk
  | [] => [(ps, e)]
  | (qs, f) :: r => if qs = ps then (ps, e) :: r else (qs, f) :: set ps e r

/-- What a name stands for in the directory at `here`. -/
def lookup (d : Disk) (here : List Text) (name : Text) : Except FileReason DiskEntry :=
  if maxNameSize < size name then .error .nameTooLong
  else
    match d.node? (place here name) with
    | some e => .ok e
    | none => .error .notFound

/-- The directory that names lead to from the one at `here`. -/
def enter (d : Disk) (here : List Text) : List Text → Except FileReason (List Text)
  | [] => .ok here
  | n :: r =>
    match d.lookup here n with
    | .ok .directory => enter d (place here n) r
    | .ok (.file _) => .error .notDirectory
    | .error reason => .error reason

/-- The directory in which a path ends, and its last name there. -/
def locate (path : Text) (d : Disk) : Except FileReason (List Text × Text) :=
  match refusal? path with
  | some reason => .error reason
  | none =>
    if path.isEmpty then .error .notFound
    else if maxPathSize < size path then .error .nameTooLong
    else
      let ns := names path
      (enter d [] ns.dropLast).map fun here => (here, ns.getLast?.getD ".")

def entryAt (path : Text) (d : Disk) : Except FileReason DiskEntry :=
  (d.locate path).bind fun (here, n) => d.lookup here n

/-- Is there anything at a path? -/
def holds (path : Text) (d : Disk) : Except FileError Bool :=
  match d.entryAt (tidy path) with
  | .ok _ => .ok true
  | .error .nameTooLong => .error ⟨.nameTooLong, tidy path⟩
  | .error _ => .ok false

/-! ### Files -/

def read (path : Text) (d : Disk) : Except FileError Text.Decoded :=
  match d.entryAt path with
  | .ok (.file content) =>
    if asksDirectory path then .error ⟨.notDirectory, path⟩ else .ok content
  | .ok .directory => .error ⟨.isDirectory, path⟩
  | .error reason => .error ⟨reason, path⟩

/-- The place where a file can be written. -/
def writable (path : Text) (d : Disk) : Except FileReason (List Text) :=
  (d.locate path).bind fun (here, n) =>
    if asksDirectory path then .error .isDirectory
    else
      match d.lookup here n with
      | .ok .directory => .error .isDirectory
      | .ok (.file _) => .ok (place here n)
      | .error .notFound => .ok (place here n)
      | .error reason => .error reason

def write (path : Text) (content : Text.Decoded) (d : Disk) : Except FileError Disk :=
  match d.writable path with
  | .ok ps => .ok (d.set ps (.file content))
  | .error reason => .error ⟨reason, path⟩

def makeDirectory (path : Text) (d : Disk) : Disk :=
  let ps := placeOf path
  if (d.node? ps).isSome then d else d.set ps .directory

/-- Without a directory and everything in it. -/
def remove (path : Text) (d : Disk) : Disk :=
  d.filter fun (qs, _) => !(placeOf path).isPrefixOf qs

theorem at?_set (ps qs : List Text) (e : DiskEntry) (d : Disk) :
    (d.set ps e).at? qs = if qs = ps then some e else d.at? qs := by
  induction d with
  | nil => by_cases h : qs = ps <;> simp [set, at?, h, Ne.symm]
  | cons p r ih =>
    obtain ⟨rs, f⟩ := p
    by_cases h : rs = ps
    · subst h
      by_cases h' : qs = rs <;> simp [set, at?, h', eq_comm]
    · by_cases h' : rs = qs
      · subst h'; simp [set, at?, h]
      · simp [set, at?, h, h', ih]

theorem node?_set {ps : List Text} (h : ps ≠ []) (qs : List Text) (e : DiskEntry) (d : Disk) :
    (d.set ps e).node? qs = if qs = ps then some e else d.node? qs := by
  by_cases hq : qs = ps
  · subst hq; simp [node?, h, at?_set]
  · simp [node?, at?_set, hq]

/-- Directories stay where they are when a file is put beside them. -/
theorem lookup_set_of_directory {ps here : List Text} {n : Text} {content : Text.Decoded}
    {d : Disk} (hps : d.node? ps ≠ some .directory) (h : d.lookup here n = .ok .directory) :
    (d.set ps (.file content)).lookup here n = .ok .directory := by
  have hne : ps ≠ [] := by rintro rfl; exact hps rfl
  unfold lookup at h ⊢
  split at h
  · cases h
  · next hn =>
    rw [if_neg hn, node?_set hne]
    split at h
    · next e he =>
      cases h
      rw [if_neg (by rintro rfl; exact hps he), he]
    · cases h

theorem enter_set {ps : List Text} {content : Text.Decoded} {d : Disk}
    (hps : d.node? ps ≠ some .directory) (ns : List Text) {here there : List Text}
    (h : d.enter here ns = .ok there) : (d.set ps (.file content)).enter here ns = .ok there := by
  induction ns generalizing here with
  | nil => exact h
  | cons n r ih =>
    unfold enter at h ⊢
    split at h
    · next hl => rw [lookup_set_of_directory hps hl]; exact ih h
    · cases h
    · cases h

theorem locate_set {ps : List Text} {content : Text.Decoded} {d : Disk} {path : Text}
    {r : List Text × Text} (hps : d.node? ps ≠ some .directory)
    (h : d.locate path = .ok r) : (d.set ps (.file content)).locate path = .ok r := by
  unfold locate at h ⊢
  split at h
  · cases h
  · split at h
    · cases h
    · split at h
      · cases h
      · next hempty hsize =>
        rw [if_neg hempty, if_neg hsize]
        cases he : d.enter [] (names path).dropLast with
        | error e => simp [he, Except.map] at h
        | ok there => simpa [he, enter_set hps _ he, Except.map] using h

/-- A file that is put where no directory stands is found there. -/
theorem lookup_set {here : List Text} {n : Text} (content : Text.Decoded) {d : Disk}
    (h : (∃ f, d.lookup here n = .ok (.file f)) ∨ d.lookup here n = .error .notFound) :
    d.node? (place here n) ≠ some .directory ∧
      (d.set (place here n) (.file content)).lookup here n = .ok (.file content) := by
  have hlen : ¬ maxNameSize < size n := by
    intro hlen
    simp [lookup, hlen] at h
  have hdir : d.node? (place here n) ≠ some .directory := by
    intro hdir
    simp [lookup, hlen, hdir] at h
  have hne : place here n ≠ [] := by
    intro hne
    simp [node?, hne] at hdir
  exact ⟨hdir, by simp [lookup, hlen, node?_set hne]⟩

/-- What was written is read back. -/
theorem read_of_write {path : Text} {content : Text.Decoded} {d d' : Disk}
    (h : d.write path content = .ok d') : d'.read path = .ok content := by
  unfold write at h
  split at h
  · next ps hw =>
    cases h
    unfold writable at hw
    cases hl : d.locate path with
    | error e => simp [hl, Except.bind] at hw
    | ok r =>
      obtain ⟨here, n⟩ := r
      simp only [hl, Except.bind] at hw
      split at hw
      · cases hw
      · next hd =>
        have hs : ps = place here n ∧ ((∃ f, d.lookup here n = .ok (.file f)) ∨
            d.lookup here n = .error .notFound) := by
          split at hw <;> simp_all
        obtain ⟨rfl, hs⟩ := hs
        obtain ⟨hdir, hfile⟩ := lookup_set content hs
        simp [read, entryAt, locate_set hdir hl, Except.bind, hfile, hd]
  · cases h

end Disk

end Notebook
