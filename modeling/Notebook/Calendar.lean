/-!
# Dates

Dates of the Gregorian calendar from year 1 to year 9999, counted in days from the first one.
-/

namespace Notebook

-- A sum begins with the zero of the core library here, whatever is imported besides.
attribute [local instance (high)] Zero.ofOfNat0

def isLeapYear (y : Nat) : Bool := y % 4 == 0 && (y % 100 != 0 || y % 400 == 0)

def daysInMonth (y m : Nat) : Nat :=
  if m = 2 then if isLeapYear y then 29 else 28
  else if m = 4 ∨ m = 6 ∨ m = 9 ∨ m = 11 then 30
  else 31

/-- Is there such a day? -/
def IsDate (y m d : Nat) : Prop :=
  1 ≤ y ∧ y ≤ 9999 ∧ 1 ≤ m ∧ m ≤ 12 ∧ 1 ≤ d ∧ d ≤ daysInMonth y m

instance (y m d : Nat) : Decidable (IsDate y m d) := inferInstanceAs (Decidable (_ ∧ _))

structure Date where
  year : Nat
  month : Nat
  day : Nat
  exists_day : IsDate year month day
  deriving DecidableEq

namespace Date

def of? (y m d : Nat) : Option Date := if h : IsDate y m d then some ⟨y, m, d, h⟩ else none

def first : Date := ⟨1, 1, 1, by decide⟩

def last : Date := ⟨9999, 12, 31, by decide⟩

theorem of?_eq_some_iff {y m d : Nat} {a : Date} :
    of? y m d = some a ↔ a.year = y ∧ a.month = m ∧ a.day = d := by
  unfold of?
  constructor
  · intro h
    split at h
    · cases h; exact ⟨rfl, rfl, rfl⟩
    · cases h
  · rintro ⟨rfl, rfl, rfl⟩
    rw [dif_pos a.exists_day]

/-! ### Counting days -/

def daysBeforeYear (y : Nat) : Nat := 365 * (y - 1) + (y - 1) / 4 - (y - 1) / 100 + (y - 1) / 400

def daysBeforeMonth (y m : Nat) : Nat :=
  ((List.range (m - 1)).map fun k => daysInMonth y (k + 1)).sum

/-- Days since the first date. -/
def dayNumber (a : Date) : Nat :=
  daysBeforeYear a.year + daysBeforeMonth a.year a.month + (a.day - 1)

/-- The month and the day that come `n` days after the first of month `m`, with `left` months of
the year to come after it. -/
def monthAndDay (y : Nat) : (left m n : Nat) → Nat × Nat
  | 0, m, n => (m, n + 1)
  | left + 1, m, n =>
    if n < daysInMonth y m then (m, n + 1)
    else monthAndDay y left (m + 1) (n - daysInMonth y m)

/-- The date `n` days after the first one, or the last date if there are not so many. -/
def ofDayNumber (n : Nat) : Date :=
  let cycle := n / 146097
  let inCycle := n % 146097
  let century := min (inCycle / 36524) 3
  let inCentury := inCycle - 36524 * century
  let four := inCentury / 1461
  let inFour := inCentury % 1461
  let one := min (inFour / 365) 3
  let y := 400 * cycle + 100 * century + 4 * four + one + 1
  let (m, d) := monthAndDay y 11 1 (inFour - 365 * one)
  (of? y m d).getD last

end Date

end Notebook
