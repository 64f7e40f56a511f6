import Notebook.Text.Blank
import Notebook.Text.WordChar

/-!
# Command line arguments

One query, and options before or behind it.  The name of an option may be cut short, and its value
stands behind it or behind an equals sign.  Behind `--` there are no options.
-/

namespace Notebook.CommandLine

inductive Switch
  | help
  | notesFile
  | wordVectors
  | analyze
  | semantic
  deriving DecidableEq, Repr

namespace Switch

def names : Switch → List Text
  | .help => ["-h", "--help"]
  | .notesFile => ["--notes-file"]
  | .wordVectors => ["--word-vectors"]
  | .analyze => ["--analyze"]
  | .semantic => ["--semantic"]

def all : List Switch := [help, notesFile, wordVectors, analyze, semantic]

def takesValue : Switch → Bool
  | .notesFile => true
  | .wordVectors => true
  | _ => false

def ofName? (s : Text) : Option Switch := all.find? fun o => o.names.contains s

/-- The options one of whose names begins so. -/
def beginningWith (cs : List Letter) : List Switch :=
  all.filter fun o => o.names.any fun n => cs.isPrefixOf n.toList

end Switch

/-- What a word of the command line is. -/
inductive Part
  | plain (word : Text)
  /-- The first `--`. -/
  | divider
  | switch (o : Switch) (value : Option Text)
  | unknown
  | ambiguous
  deriving DecidableEq, Repr

/-- A decimal digit of any script. -/
def isDigit : Letter → Bool
  | .char c => Text.isDecimalDigit c
  | .half _ => false

/-- Digits to the end, or to a line feed at the end. -/
def areDigits (cs : List Letter) : Bool :=
  let ds := if cs.getLast? = some (.char '\n') then cs.dropLast else cs
  !ds.isEmpty && ds.all isDigit

/-- A negative number, with or without a decimal point. -/
def isNegativeNumber (cs : List Letter) : Bool :=
  match cs with
  | .char '-' :: r =>
    areDigits r ||
      match r.dropWhile isDigit with
      | .char '.' :: fraction => areDigits fraction
      | _ => false
  | _ => false

/-- Name and value around the first equals sign. -/
def splitValue (cs : List Letter) : List Letter × Option Text :=
  match cs.dropWhile (· ≠ .char '=') with
  | [] => (cs, none)
  | _ :: value => (cs.takeWhile (· ≠ .char '='), some (Text.ofList value))

/-- Does a text only say once more, or several times, that help is asked for? -/
def repeatsHelp (cs : List Letter) : Bool := !cs.isEmpty && cs.all (· == .char 'h')

/-- An option whose name is followed by `value` at once. -/
def ofNameWithValue (o : Switch) (name value : Text) : Part :=
  .switch o (if name = "-h" ∧ repeatsHelp value.toList then none else some value)

/-- What a word with a dash in front is that is no full name of an option. -/
def ofShortened (word : Text) : Part :=
  let cs := word.toList
  let (name, value) := splitValue cs
  let found := match cs with
    | .char '-' :: .char '-' :: _ => (Switch.beginningWith name).map fun o => .switch o value
    | .char '-' :: .char 'h' :: r => [ofNameWithValue .help "-h" (Text.ofList r)]
    | _ => []
  match found with
  | [p] => p
  | _ :: _ => .ambiguous
  | [] => if isNegativeNumber cs || cs.contains (.char ' ') then .plain word else .unknown

/-- What a word is that no divider stands before. -/
def ofWord (word : Text) : Part :=
  match word.toList with
  | .char '-' :: _ =>
    match Switch.ofName? word with
    | some o => .switch o none
    | none =>
      if word = "-" then .plain word
      else
        match splitValue word.toList with
        | (name, some value) =>
          match Switch.ofName? (Text.ofList name) with
          | some o => ofNameWithValue o (Text.ofList name) value
          | none => ofShortened word
        | _ => ofShortened word
  | _ => .plain word

def partsOf : List Text → List Part
  | [] => []
  | w :: ws => if w = "--" then .divider :: ws.map .plain else ofWord w :: partsOf ws

structure Arguments where
  query : Text
  notesFile : Text
  wordVectors : Text
  analyze : Bool
  semantic : Bool
  deriving DecidableEq, Repr

/-- What is asked for. -/
inductive Request
  | search (a : Arguments)
  | help
  | misuse
  deriving DecidableEq, Repr

/-- The arguments read so far: the query if there is one, whether it was the last thing read, and
whether there is something that has no place. -/
structure Draft where
  query : Option Text
  atQuery : Bool
  surplus : Bool
  arguments : Arguments

namespace Draft

def addPlain (word : Text) (d : Draft) : Draft :=
  match d.query with
  | none => { d with query := some word, atQuery := true }
  | some _ => { d with atQuery := false, surplus := true }

/-- A divider has its place before the query or right behind it. -/
def addDivider (d : Draft) : Draft :=
  if d.query.isSome && !d.atQuery then { d with surplus := true } else d

def setValue (o : Switch) (value : Text) (d : Draft) : Draft :=
  { d with
    atQuery := false
    arguments := match o with
      | .notesFile => { d.arguments with notesFile := value }
      | .wordVectors => { d.arguments with wordVectors := value }
      | _ => d.arguments }

def setFlag (o : Switch) (d : Draft) : Draft :=
  { d with
    atQuery := false
    arguments := match o with
      | .analyze => { d.arguments with analyze := true }
      | .semantic => { d.arguments with semantic := true }
      | _ => d.arguments }

def finish (d : Draft) : Request :=
  match d.query with
  | some q => if d.surplus then .misuse else .search { d.arguments with query := q }
  | none => .misuse

end Draft

/-- The request in the parts of a command line; `waiting` is an option whose value comes next. -/
def request (waiting : Option Switch) (d : Draft) : List Part → Request
  | [] => if waiting.isSome then .misuse else d.finish
  | p :: ps =>
    match waiting, p with
    | some o, .plain v => request none (d.setValue o v) ps
    | some _, _ => .misuse
    | none, .plain w => request none (d.addPlain w) ps
    | none, .divider => request none d.addDivider ps
    | none, .unknown => request none { d with atQuery := false, surplus := true } ps
    | none, .ambiguous => .misuse
    | none, .switch o (some v) =>
      if o.takesValue then request none (d.setValue o v) ps else .misuse
    | none, .switch o none =>
      if o.takesValue then request (some o) d ps
      else if o = .help then .help
      else request none (d.setFlag o) ps

/-- The request in the words of a command line; `usual` has the values of options that are not
given. -/
def parse (usual : Arguments) (words : List Text) : Request :=
  let ps := partsOf words
  if ps.contains .ambiguous then .misuse else request none ⟨none, false, false, usual⟩ ps

end Notebook.CommandLine
