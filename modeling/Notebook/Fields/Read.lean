import Notebook.Fields.Checked
import Notebook.Moment
import Notebook.Text.Quoted
import Notebook.Vector.Grid

/-!
# Fields of records

What a field of a given kind takes: other spellings of the same value are read too, such as `"yes"`
for a flag, `"0.5"` for a number and a time stamp for a moment.
-/

namespace Notebook.Fields

variable {α : Type}

def text : Json → Checked Text
  | .str s => .ok s
  | _ => .fault .notText

/-- A value given by its spelling, which has to be made of characters alone. -/
def spelled (read : List Char → Checked α) (s : Text) : Checked α :=
  match Text.chars? s.toList with
  | some cs => read cs
  | none => .fault .unpairedText

/-! ### Flags -/

/-- Zero or one.  Numbers of more than 64 bits are not looked at. -/
def flagOfWhole (i : Int) : Checked Bool :=
  if i = 0 then .ok false
  else if i = 1 then .ok true
  else if -9223372036854775808 ≤ i ∧ i ≤ 9223372036854775807 then .fault .flagUnreadable
  else .fault .notFlag

def flagOfName (cs : List Char) : Checked Bool :=
  let name := String.ofList (Decimal.asciiLower cs)
  if name ∈ ["t", "true", "y", "yes", "on", "1"] then .ok true
  else if name ∈ ["f", "false", "n", "no", "off", "0"] then .ok false
  else .fault .flagUnreadable

/-- Is a double strictly between the bounds of whole numbers of 64 bits? -/
def isSmall (x : Float) : Bool := -9223372036854775808.0 < x && x < 9223372036854775808.0

def flag : Json → Checked Bool
  | .bool b => .ok b
  | .int i => flagOfWhole i
  | .float x =>
    if Decimal.isWhole x && isSmall x then flagOfWhole (Decimal.wholePart x) else .fault .notFlag
  | .str s => spelled flagOfName s
  | _ => .fault .notFlag

/-! ### Numbers -/

/-- Without its underscores, if it has any, none at an end and no two in a row. -/
def withoutUnderscores? (cs : List Char) : Option (List Char) :=
  let ps := Text.pieces '_' cs
  if ps.length = 1 || ps.any (·.isEmpty) then none else some ps.flatten

def numberOfText (cs : List Char) : Checked Float :=
  match Decimal.read? (Text.trimBy (fun c : Char => Text.isSpace c) cs) with
  | some x => .ok x
  | none =>
    match (withoutUnderscores? cs).bind Decimal.read? with
    | some x => .ok x
    | none => .fault .numberUnreadable

def number : Json → Checked Float
  | .float x => .ok x
  | .int i =>
    let x := Decimal.ofInt i
    if Decimal.isFinite x then .ok x else .fault .notNumber
  | .bool b => .ok (if b then 1.0 else 0.0)
  | .str s => spelled numberOfText s
  | _ => .fault .notNumber

/-- From 0 to 1.  The upper bound is looked at first, and what is no number fails it. -/
def ratio (v : Json) : Checked Float :=
  (number v).andThen fun x =>
    if ¬ x ≤ 1.0 then .fault .tooLarge else if ¬ 0.0 ≤ x then .fault .tooSmall else .ok x

/-- What is left of a whole number behind a zero, where `last` is the character passed before:
zeros and underscores are passed over, but the last of them stays before a point and at the end. -/
def behindZeros? (last : Char) : List Char → Option (List Char)
  | [] => some [last]
  | c :: r =>
    if c = '0' ∨ c = '_' then behindZeros? c r
    else if c = '.' then some (last :: c :: r)
    else if c.isDigit ∨ c = '-' then some (c :: r)
    else none

def withoutLeadingZeros? : List Char → Option (List Char)
  | [] => none
  | c :: r => if c = '0' then behindZeros? c r else if c.isDigit then some (c :: r) else none

/-- Without a point and the zeros behind it, if there are such zeros and nothing else. -/
def withoutPlaces (cs : List Char) : List Char :=
  match cs.dropWhile (· != '.') with
  | _ :: d :: r => if (d :: r).all (· == '0') then cs.takeWhile (· != '.') else cs
  | _ => cs

/-- Digits, with single underscores between them. -/
def joinedDigits? (cs : List Char) : Option (List Char) :=
  let ps := Text.pieces '_' cs
  if ps.any (·.isEmpty) then none else some ps.flatten

/-- The most digits that a whole number may have. -/
def maxDigits : Nat := 4300

/-- Digits that do not begin with a zero, or a zero alone. -/
def wholeOfDigits (negative : Bool) (cs : List Char) : Checked Int :=
  let ds := cs.takeWhile Char.isDigit
  if ds.head? = some '0' then if cs = ['0'] then .ok 0 else .fault .wholeUnreadable
  else if maxDigits < ds.length then .fault .wholeOutOfRange
  else if ds.isEmpty ∨ ds.length ≠ cs.length then .fault .wholeUnreadable
  else
    let n : Int := Decimal.natOfDigits ds
    .ok (if negative then -n else n)

/-- Digits behind the sign of the whole text.  A further minus sign may come in sight when the
zeros before it are taken away. -/
def wholeOfUnsigned (negative : Bool) (cs : List Char) : Checked Int :=
  match ((withoutLeadingZeros? cs).map withoutPlaces).bind joinedDigits? with
  | none => .fault .wholeUnreadable
  | some ('-' :: ds) => if negative then .fault .wholeUnreadable else wholeOfDigits true ds
  | some ds => wholeOfDigits negative ds

/-- A whole number, behind which a point and zeros may stand. -/
def wholeOfText (cs : List Char) : Checked Int :=
  let (negative, r) := Decimal.splitSign (Text.trimBy (fun c : Char => Text.isSpace c) cs)
  wholeOfUnsigned negative r

def whole : Json → Checked Int
  | .int i => .ok i
  | .bool b => .ok (if b then 1 else 0)
  | .float x =>
    if ¬ Decimal.isFinite x then .fault .notFinite
    else if ¬ Decimal.isWhole x then .fault .fractional
    else if isSmall x then .ok (Decimal.wholePart x)
    else .fault .wholeOutOfRange
  | .str s => spelled wholeOfText s
  | _ => .fault .notWhole

/-! ### Moments and grids -/

def ofReading (unreadable : FaultKind) : Moment.Reading → Checked Moment
  | .moment t => .ok t
  | .yearZero => .fault .stampUnreadable
  | .unreadable => .fault unreadable

def moment : Json → Checked Moment
  | .str s => spelled (fun cs => ofReading .momentUnreadable (Moment.read cs)) s
  | .int i => ofReading .stampUnreadable (Moment.ofWhole i)
  | .float x => ofReading .stampUnreadable (Moment.ofFloat x)
  | _ => .fault .notMoment

/-- A moment that has an offset; Universal Time is filled in. -/
def zonedMoment (v : Json) : Checked Moment := (moment v).map Moment.zoned

def grid (v : Json) : Checked Grid :=
  match Grid.ofJson v with
  | .ok g => .ok g
  | .error (.ragged _) => .fault .notGrid
  | .error (.unreadable _) => .fault .notGrid
  | .error .notNumber => .broken .notNumber
  | .error .tooLarge => .broken .numberTooLarge

/-! ### Choices, lists and absent values -/

/-- One of the values that have names. -/
def choice (ofName? : Text → Option α) : Json → Checked α
  | .str s =>
    spelled (fun cs =>
      match ofName? (.ofChars cs) with
      | some a => .ok a
      | none => .fault .notChoice) s
  | _ => .fault .notChoice

/-- The items of a list from place `i` on. -/
def items (read : Json → Checked α) (i : Nat) : List Json → Checked (List α)
  | [] => .ok []
  | v :: vs => List.cons <$> (read v).under (toString i) <*> items read (i + 1) vs

def list (read : Json → Checked α) : Json → Checked (List α)
  | .arr vs => items read 0 vs
  | _ => .fault .notList

/-- Null stands for no value. -/
def option (read : Json → Checked α) : Json → Checked (Option α)
  | .null => .ok none
  | v => (read v).map some

/-! ### Fields by name -/

def required (name : Text) (read : Json → Checked α) (fields : Keyed Json) : Checked α :=
  match fields.get? name with
  | some v => (read v).under name
  | none => Checked.under name (.fault .missing)

def defaulted (name : Text) (default : α) (read : Json → Checked α) (fields : Keyed Json) :
    Checked α :=
  match fields.get? name with
  | some v => (read v).under name
  | none => .ok default

end Notebook.Fields
