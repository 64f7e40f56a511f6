import Notebook.Calendar
import Notebook.Decimal.Numeral

/-!
# Moments

A moment is a date and a time of day to the microsecond, with the offset of its zone from
Universal Time.  One without an offset is taken in Universal Time wherever moments are compared.
`read` knows `2024-06-15T12:00:00.5+05:30` and its shorter forms.  It never comes to an offset that
is not in whole minutes, and the seconds of such an offset are not written down.
-/

namespace Notebook

structure TimeOfDay where
  hour : Nat
  minute : Nat
  second : Nat
  micro : Nat
  inDay : hour < 24 ∧ minute < 60 ∧ second < 60 ∧ micro < 1000000
  deriving DecidableEq

namespace TimeOfDay

def of? (h m s u : Nat) : Option TimeOfDay :=
  if ok : h < 24 ∧ m < 60 ∧ s < 60 ∧ u < 1000000 then some ⟨h, m, s, u, ok⟩ else none

def midnight : TimeOfDay := ⟨0, 0, 0, 0, by decide⟩

/-- Microseconds since midnight. -/
def micros (t : TimeOfDay) : Nat := ((t.hour * 60 + t.minute) * 60 + t.second) * 1000000 + t.micro

def ofMicros (n : Nat) : TimeOfDay :=
  let u := n % 86400000000
  let s := u / 1000000
  ⟨s / 3600, s / 60 % 60, s % 60, u % 1000000, by omega⟩

end TimeOfDay

/-- How far the clocks of a zone are ahead of Universal Time. -/
structure Offset where
  micros : Int
  /-- Do the clocks show the time twice, or never, because they are put back or forward?  Such a
  moment is none of a zone where they always show this offset. -/
  unsettled : Bool
  inDay : -86400000000 < micros ∧ micros < 86400000000
  deriving DecidableEq

namespace Offset

def zero : Offset := ⟨0, false, by decide⟩

def ofMinutes? (m : Int) : Option Offset :=
  if h : -1440 < m ∧ m < 1440 then some ⟨m * 60000000, false, by omega⟩ else none

/-- The seconds of the offset, to the nearest one. -/
def seconds (o : Offset) : Int :=
  let n := (o.micros.natAbs + 500000) / 1000000
  if o.micros < 0 then -n else n

/-- Can the offset be told in hours and minutes? -/
def Expressible (o : Offset) : Prop := 60000000 ∣ o.micros ∧ o.unsettled = false

instance (o : Offset) : Decidable o.Expressible := inferInstanceAs (Decidable (_ ∧ _))

end Offset

structure Moment where
  date : Date
  time : TimeOfDay
  offset : Option Offset
  deriving DecidableEq

namespace Moment

/-- Midnight of a date in Universal Time. -/
def ofDate (a : Date) : Moment := ⟨a, .midnight, some .zero⟩

/-- The same moment with an offset: its own, or that of Universal Time. -/
def zoned (t : Moment) : Moment := { t with offset := some (t.offset.getD .zero) }

/-- Microseconds since the first date in Universal Time. -/
def instant (t : Moment) : Int :=
  (t.date.dayNumber : Int) * 86400000000 + t.time.micros
    - (t.offset.getD .zero).micros

/-- The moment at an instant, as clocks with the given offset show it. -/
def ofInstant (offset : Option Offset) (n : Int) : Moment :=
  let wall := (n + (offset.getD .zero).micros).toNat
  ⟨.ofDayNumber (wall / 86400000000), .ofMicros (wall % 86400000000), offset⟩

/-- Is the offset one that can be told in hours and minutes? -/
def Expressible (t : Moment) : Prop := ∀ o ∈ t.offset, o.Expressible

instance (t : Moment) : Decidable t.Expressible := by
  unfold Expressible
  infer_instance

theorem expressible_zoned {t : Moment} (h : t.Expressible) : t.zoned.Expressible := by
  rintro o ⟨⟩
  cases ho : t.offset with
  | none => decide
  | some o => exact h o ho

/-- The same moment with an offset that can be told: its own, or that of Universal Time. -/
def told (t : Moment) : Moment :=
  if t.Expressible then t.zoned else ofInstant (some .zero) t.instant

theorem expressible_told (t : Moment) : t.told.Expressible := by
  unfold told
  split
  · next h => exact expressible_zoned h
  · rintro o ⟨⟩
    decide

@[simp] theorem zoned_zoned (t : Moment) : t.zoned.zoned = t.zoned := rfl

@[simp] theorem instant_zoned (t : Moment) : t.zoned.instant = t.instant := rfl

/-! ### Seconds -/

/-- A number of seconds in microseconds, to the nearest one. -/
def microsOfSeconds (s : Float) : Int :=
  let fraction := Decimal.roundEven (Decimal.fractionPart s * 1000000.0)
  Decimal.wholePart s * 1000000 + if s < 0.0 then -fraction else fraction

/-- Later by `s` seconds. -/
def later (t : Moment) (s : Float) : Moment := ofInstant t.offset (t.instant + microsOfSeconds s)

/-! ### Time stamps -/

/-- What a text or a number may turn out to be where a moment is wanted.  The year 0 is known to
the notation and not to the calendar. -/
inductive Reading
  | moment (t : Moment)
  | yearZero
  | unreadable

/-- Microseconds from the first date to the beginning of 1970. -/
def epoch : Int := 62135596800000000

/-- The moment so many microseconds after the beginning of 1970. -/
def ofMicros (total : Int) : Reading :=
  let seconds := Int.fdiv total 1000000
  if seconds < -62167219200 ∨ 253402300799 < seconds then .unreadable
  else if seconds < -62135596800 then .yearZero
  else .moment (ofInstant (some .zero) (total + epoch))

/-- Seconds since 1970, or thousandths of them if the number is beyond 20 thousand million. -/
def ofWhole (n : Int) : Reading :=
  ofMicros (if n.natAbs ≤ 20000000000 then n * 1000000 else n * 1000)

/-- The same for a double, of whose part above its floor the microseconds are taken. -/
def ofFloat (x : Float) : Reading :=
  if Decimal.isFinite x then
    let n := Decimal.floor x
    let rest := x - Decimal.ofInt n
    if -20000000000.0 ≤ x ∧ x ≤ 20000000000.0 then
      ofMicros (n * 1000000 + Decimal.roundAway (rest * 1000000.0))
    else ofMicros (n * 1000 + Decimal.roundAway (rest * 1000.0))
  else .unreadable

/-! ### Reading -/

/-- The number that the first `n` characters stand for, if they are digits. -/
def digits? (n : Nat) (cs : List Char) : Option (Nat × List Char) :=
  let ds := cs.take n
  if ds.length = n && ds.all Char.isDigit then some (Decimal.natOfDigits ds, cs.drop n) else none

def after? (c : Char) : List Char → Option (List Char)
  | d :: r => if d = c then some r else none
  | [] => none

/-- Year, month and day, and the rest of the text. -/
def dateParts? (cs : List Char) : Option ((Nat × Nat × Nat) × List Char) := do
  let (y, r) ← digits? 4 cs
  let (m, r) ← digits? 2 (← after? '-' r)
  let (d, r) ← digits? 2 (← after? '-' r)
  return ((y, m, d), r)

/-- The first six digits of a fraction of a second, filled up with zeros. -/
def microsOfDigits (ds : List Char) : Nat :=
  Decimal.natOfDigits ((ds ++ List.replicate 6 '0').take 6)

/-- Seconds, if there are any, and the rest. -/
def seconds? : List Char → Option ((Nat × Nat) × List Char)
  | ':' :: r => do
    let (s, r) ← digits? 2 r
    match r with
    | c :: q =>
      if c = '.' ∨ c = ',' then
        let ds := q.takeWhile Char.isDigit
        if ds.isEmpty then none else return ((s, microsOfDigits ds), q.dropWhile Char.isDigit)
      else return ((s, 0), r)
    | [] => return ((s, 0), r)
  | r => some ((0, 0), r)

def sign? (c : Char) : Option Int :=
  if c = '+' then some 1 else if c = '-' ∨ c = '\u2212' then some (-1) else none

/-- The zone at the end of a text: none, `Z`, or a sign with hours and minutes. -/
def zone? : List Char → Option (Option Offset)
  | [] => some none
  | c :: r =>
    if c = 'Z' ∨ c = 'z' then if r.isEmpty then some (some .zero) else none
    else do
      let sign ← sign? c
      let (h, r) ← digits? 2 r
      let (m, r) ← digits? 2 ((after? ':' r).getD r)
      if r.isEmpty && m < 60 then (Offset.ofMinutes? (sign * (h * 60 + m))).map some else none

def time? (cs : List Char) : Option (TimeOfDay × Option Offset) := do
  let (h, r) ← digits? 2 cs
  let (m, r) ← digits? 2 (← after? ':' r)
  let ((s, u), r) ← seconds? r
  return (← TimeOfDay.of? h m s u, ← zone? r)

/-- A date, with the year 0 told apart from days that no year has. -/
def ofParts (y m d : Nat) (time : TimeOfDay) (offset : Option Offset) : Reading :=
  match Date.of? y m d with
  | some a => .moment ⟨a, time, offset⟩
  | none => if y = 0 ∧ (Date.of? 2000 m d).isSome then .yearZero else .unreadable

/-- A date, one of `T`, `t`, `_` and the space, and a time. -/
def readFull (cs : List Char) : Reading :=
  match dateParts? cs with
  | some ((y, m, d), c :: r) =>
    if c = 'T' ∨ c = 't' ∨ c = ' ' ∨ c = '_' then
      match time? r with
      | some (time, offset) => ofParts y m d time offset
      | none => .unreadable
    else .unreadable
  | _ => .unreadable

/-- A date alone stands for its midnight. -/
def readDate (cs : List Char) : Reading :=
  match dateParts? cs with
  | some ((y, m, d), []) => ofParts y m d .midnight none
  | _ => .unreadable

/-- A plain decimal number is a time stamp. -/
def readStamp (cs : List Char) : Reading :=
  let (negative, r) := Decimal.splitSign cs
  let whole := r.takeWhile Char.isDigit
  match r.dropWhile Char.isDigit with
  | [] =>
    if whole.isEmpty then .unreadable
    else
      let n : Int := Decimal.natOfDigits whole
      ofWhole (if negative then -n else n)
  | '.' :: ds =>
    if ds.all Char.isDigit && !(whole.isEmpty && ds.isEmpty) then
      ofFloat (Decimal.withSign negative (Decimal.Numeral.toFloat ⟨whole, ds, 0⟩))
    else .unreadable
  | _ => .unreadable

def Reading.orElse : Reading → Reading → Reading
  | .unreadable, r => r
  | r, _ => r

/-- A moment in a text, in any of the three forms. -/
def read (cs : List Char) : Reading :=
  ((readFull cs).orElse (readStamp cs)).orElse (readDate cs)

/-! ### Writing -/

/-- A number in `width` digits. -/
def padded (width n : Nat) : List Char :=
  let ds := Nat.toDigits 10 n
  List.replicate (width - ds.length) '0' ++ ds

/-- Microseconds are written only if there are any. -/
def fractionText (u : Nat) : List Char := if u = 0 then [] else '.' :: padded 6 u

/-- The zone, of which seconds are left out.  Universal Time is written as `Z`. -/
def zoneText : Option Offset → List Char
  | none => []
  | some o =>
    if o.seconds = 0 then ['Z']
    else
      let n := o.seconds.natAbs / 60
      (if o.seconds < 0 then '-' else '+') :: padded 2 (n / 60) ++ ':' :: padded 2 (n % 60)

/-- The whole zone.  Its seconds are written only if there are any. -/
def isoZoneText : Option Offset → List Char
  | none => []
  | some o =>
    let n := o.micros.natAbs
    let s := n / 1000000
    (if o.micros < 0 then '-' else '+') :: padded 2 (s / 3600) ++ ':' :: padded 2 (s / 60 % 60) ++
      (if n % 60000000 = 0 then [] else ':' :: padded 2 (s % 60) ++ fractionText (n % 1000000))

/-- Date and time of day. -/
def localText (t : Moment) : List Char :=
  padded 4 t.date.year ++ '-' :: padded 2 t.date.month ++ '-' :: padded 2 t.date.day ++
    'T' :: padded 2 t.time.hour ++ ':' :: padded 2 t.time.minute ++
    ':' :: padded 2 t.time.second ++ fractionText t.time.micro

/-- As a record has it. -/
def text (t : Moment) : String := String.ofList (t.localText ++ zoneText t.offset)

/-- With the whole offset, also that of Universal Time. -/
def isoText (t : Moment) : String := String.ofList (t.localText ++ isoZoneText t.offset)

end Moment

/-! ### Clocks -/

/-- A clock on the wall, which shows a moment with an offset that can be told, and a clock that
counts seconds. -/
structure Clock where
  wall : Moment
  seconds : Float
  expressible : wall.Expressible
  deriving DecidableEq

namespace Clock

/-- The clock at a moment, with the counter where it begins. -/
def startingAt (wall : Moment) : Clock := ⟨wall.told, 1000.0, wall.expressible_told⟩

/-- The clock `s` seconds later. -/
def advance (s : Float) (c : Clock) : Clock := ⟨c.wall.later s, c.seconds + s, c.expressible⟩

end Clock

end Notebook
